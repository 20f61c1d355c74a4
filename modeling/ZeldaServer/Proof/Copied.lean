import ZeldaServer.Proof.Duel
import ZeldaServer.Proof.Orderly
import ZeldaServer.Proof.Cells

/-!
# Broadcasts over a copy, with resets

A broadcast over a copy of `_players` returns whatever is reset in it. If a call of
`WSASend` either goes out or is reset, then each session that is free is called once, in
the order of `_players`, whoever makes the call: the broadcast, or one of those nested in
it. Afterwards no session of the room is free, and exactly the players whose call was
reset are gone.

* `sweep_loop`, `broadcast_sweeps`: one broadcast.
* `broadcast_idle`, `attackBy_idle`: calls when no session is free.
* `handleCMove_outcome`: the handler of `C_Move`.
* `attack_with_room`: when the handler meets a null pointer to the room.
-/

namespace ZeldaServer

open Lib Std Server

variable {st st' st₁ st₂ : Server Room} {s : SessionId} {parse : List UInt8 → CMove} {n : ℕ} {packet : Packet}
  {leaving : SessionId → Prop} {pins : List Ref} {r : Ref} {o : GameObject} {before after : List (UInt64 × Ref)} {k : UInt64}

namespace Server

/-- The call of `WSASend` for the session in a broadcast is reset. -/
def struck (st : Server Room) (s : SessionId) : Bool :=
  ((calls st).zip st.net.answers).any fun call => call.1 == s && call.2.reset

/-- A call of `WSASend` goes out or is reset. -/
def Abrupt (st : Server Room) : Prop := ∀ answer ∈ st.net.answers, answer.failed = none ∨ answer.reset = true

end Server

/-- A broadcast after which no session of the room is free, and the players whose call was
reset are gone. -/
structure Swept (st st' : Server Room) : Prop where
  same : SameObjects st.game.toScene st'.game.toScene
  monsters : st'.game.monsters = st.game.monsters
  players : ∀ (k : UInt64) (r : Ref) (s : SessionId), st.game.listener r = some s →
    (st'.game.players[k]? = some r ↔ st.game.players[k]? = some r ∧ struck st s = false)
  fewer : ∀ (k : UInt64) (r : Ref), st'.game.players[k]? = some r → st.game.players[k]? = some r
  room : ∀ (k : UInt64) (r : Ref) (s : SessionId) (o' : GameObject), st.game.players[k]? = some r →
    st.game.listener r = some s → st'.game.objects[r]? = some o' → o'.room = !struck st s
  idle : ∀ (k : UInt64) (r : Ref) (s : SessionId), st.game.players[k]? = some r → st.game.listener r = some s →
    (st'.net.session s).ready = false

/-- The broadcast has gone through `before`, and every call went out. -/
structure Calm (st : Server Room) (packet : Packet) (before : List (UInt64 × Ref)) (st₁ : Server Room) : Prop where
  going : Going st packet before st₁
  idle : ∀ s, st.game.toScene.Heard before s → (st₁.net.session s).ready = false

/-! ## Players and their sessions -/

/-- The session of an element of `_players`. -/
theorem Good.listener (h : Good Whoever st pins) (hk : st.game.players[k]? = some r) :
    k = key r ∧ ∃ (o : GameObject) (s : SessionId), st.game.objects[r]? = some o ∧ o.Plays s ∧ o.room = true ∧
      st.game.listener r = some s ∧ (st.game.gameSessions s).player = some r := by
  obtain ⟨hkey, o, s, ho, hplays, hroom, hweak, -⟩ := h.core.players k r hk
  refine ⟨hkey, o, s, ho, hplays, hroom, ?_, hweak⟩
  unfold Scene.listener
  rw [show st.game.objects[r]? = some o from ho]
  dsimp only
  rw [hplays.kind]

theorem struck_iff : struck st s = true ↔ ∃ answer, (s, answer) ∈ (calls st).zip st.net.answers ∧ answer.reset = true := by
  unfold struck
  rw [List.any_eq_true]
  constructor
  · rintro ⟨⟨t, answer⟩, hmem, htrue⟩
    simp only [Bool.and_eq_true, beq_iff_eq] at htrue
    exact ⟨answer, htrue.1 ▸ hmem, htrue.2⟩
  · rintro ⟨answer, hmem, hreset⟩
    exact ⟨(s, answer), hmem, by simp [hreset]⟩

/-- Without resets nobody is struck. -/
theorem Going.unstruck (hg : Going st packet st.game.players.toList st₁) (s : SessionId) : struck st s = false := by
  rw [← Bool.not_eq_true, struck_iff]
  rintro ⟨answer, hmem, hreset⟩
  obtain ⟨i, hi⟩ := List.getElem?_of_mem hmem
  rw [List.getElem?_zip_eq_some] at hi
  have hlt : i < (callsAt st st.game.players.toList).length := (List.getElem?_eq_some_iff.1 hi.1).1
  have hcalm := hg.spared answer (List.mem_of_getElem? (i := i) (by rw [List.getElem?_take, if_pos hlt]; exact hi.2))
  rw [hreset] at hcalm
  exact absurd hcalm.symm Bool.false_ne_true

/-- Every call went out. -/
theorem Calm.swept (h : Good Whoever st pins) (hc : Calm st packet st.game.players.toList st₁) : Swept st st₁ := by
  have hgame := hc.going.game
  refine ⟨by rw [hgame]; exact .refl, by rw [hgame], fun k r s _ => ?_, fun k r hk => hgame ▸ hk, fun k r s o' hk _ ho' => ?_,
    fun k r s hk hl => hc.idle s ?_⟩
  · rw [hgame, hc.going.unstruck]
    simp
  · obtain ⟨-, o, -, ho, -, hroom, -⟩ := h.listener hk
    rw [hgame, ho] at ho'
    rw [hc.going.unstruck, ← Option.some.inj ho', hroom]
    rfl
  · obtain ⟨hkey, -, s', -, -, -, hl', hweak⟩ := h.listener hk
    rw [hl] at hl'
    obtain rfl := Option.some.inj hl'
    refine ⟨r, hweak, ?_⟩
    rw [← hkey]
    exact TreeMap.mem_toList_iff_getElem?_eq_some.2 hk

/-- A send to a session that is not free. -/
theorem Swept.queue (hw : Swept st st₁) (t : SessionId) : Swept st (Server.modify st₁ t (·.waiting packet)) := by
  refine ⟨hw.same, hw.monsters, hw.players, hw.fewer, hw.room, fun k r s hk hl => ?_⟩
  by_cases hst : s = t
  · rw [hst, server_same]
    simp [Session.ready, Session.waiting]
  · rw [server_other _ hst]
    exact hw.idle k r s hk hl

/-! ## The loop -/

theorem Good.retainAll (h : Good Whoever st pins) (l : List Ref) : Good Whoever (Game.update st (·.retainAll l)) (l ++ pins) := by
  refine ⟨h.core, fun x => ?_⟩
  have hx := h.counted x
  show st.game.useCount x + l.count x = heldIn st.game.players x + heldIn st.game.monsters x + (l ++ pins).count x
  rw [List.count_append]
  omega

theorem Good.releaseAll {l : List Ref} (h : Good Whoever st (l ++ pins)) : Good Whoever (Game.update st (·.releaseAll l)) pins := by
  refine ⟨h.core, fun x => ?_⟩
  have hx := h.counted x
  rw [List.count_append] at hx
  show st.game.useCount x - l.count x = heldIn st.game.players x + heldIn st.game.monsters x + pins.count x
  omega

/-- The body of the loop, for the player of a session. -/
theorem broadcastTo_eq {send : SessionId → Packet → Server Room → Outcome (Server Room)} (h : Good Whoever st₁ pins)
    (hr : r ∈ pins) (ho : st₁.game.objects[r]? = some o) (hkind : o.kind = .player (some s)) :
    Game.broadcastTo send packet st₁ (k, r) = send s packet st₁ := by
  unfold Game.broadcastTo
  rw [h.deref ho (.inr hr), ok_bind, hkind]

/-- The loop goes on after a call that went out. -/
theorem Calm.next (hc : Calm st packet before st₁) (habrupt : Abrupt st) (hl : st.game.listener r = some s)
    (hnew : ¬ st.game.toScene.Heard before s)
    (hheard : ∀ t, st.game.toScene.Heard (before ++ [(k, r)]) t ↔ st.game.toScene.Heard before t ∨ t = s)
    (hcalm : (st.net.session s).ready = true → (answer st₁).reset = false) (hsent : Sent s packet st₁ st₂) :
    Calm st packet (before ++ [(k, r)]) st₂ := by
  refine ⟨hc.going.next hl hnew hheard hcalm hsent, fun t ht => ?_⟩
  by_cases hts : t = s
  · rw [hts, ← Bool.not_eq_true]
    intro hready
    -- only a call that fails leaves the session free
    obtain ⟨hfree, hfailed⟩ := hsent.ready hready
    rw [hc.going.rest s hnew] at hfree
    have hcalm := hcalm hfree
    rw [answer_drop hc.going.answers] at hfailed hcalm
    cases ha : st.net.answers[(callsAt st before).length]? with
    | none =>
      rw [ha] at hfailed
      exact hfailed rfl
    | some a =>
      rw [ha] at hfailed hcalm
      rcases habrupt a (List.mem_of_getElem? ha) with hnone | hreset
      · exact hfailed hnone
      · rw [show a.reset = false from hcalm] at hreset
        exact absurd hreset Bool.false_ne_true
  · rw [hsent.other t hts]
    exact hc.idle t ((hheard t).1 ht |>.resolve_right hts)

/-- **The loop over the copy.** The first call that is reset is followed by the calls that
are nested in it, and then the loop goes on without calls. -/
theorem sweep_loop {disconnect : SessionId → Server Room → Outcome (Server Room)} (h : Good Whoever st pins)
    (hpins : ∀ item ∈ st.game.players.toList, item.2 ∈ pins) (hreg : Registered st.net leaving) (habrupt : Abrupt st)
    (hcut : ∀ before k r after s st₁, st.game.players.toList = before ++ (k, r) :: after → st.game.listener r = some s →
      Calm st packet before st₁ → (st₁.net.session s).ready = true → (st.net.session s).ready = true →
      (answer st₁).reset = true → Returns (disconnect s (called st₁ s packet)) fun st' => Good Whoever st' pins ∧
        Registered st'.net leaving ∧ (st'.net.session s).connected = false ∧ Swept st st') :
    Returns (st.game.players.toList.foldlM (Game.broadcastTo (Session.send disconnect) packet) st) fun st' =>
      Good Whoever st' pins ∧ Registered st'.net leaving ∧ Swept st st' := by
  refine (Post.foldlM_before (I := fun before st₁ => Good Whoever st₁ pins ∧ Registered st₁.net leaving ∧
    (Calm st packet before st₁ ∨ Swept st st₁)) ?_
    (List.nil_append _).symm ⟨h, hreg, .inl ⟨going_start, ?_⟩⟩).imp fun st' h' => ?_
  · intro before item after st₁ hlist h₁
    obtain ⟨k, r⟩ := item
    obtain ⟨hgood₁, hreg₁, hphase⟩ := h₁
    obtain ⟨o, s, ho, hkind, hnew, hheard⟩ := Core.heard (v := Game.stage st) h.core hlist
    have hmem : (k, r) ∈ st.game.players.toList := by
      rw [hlist]
      simp
    have hk : st.game.players[k]? = some r := TreeMap.mem_toList_iff_getElem?_eq_some.1 hmem
    have ho : st.game.objects[r]? = some o := ho
    have hl : st.game.listener r = some s := by
      obtain ⟨-, o', s', ho', hplays, -, hl, -⟩ := h.listener hk
      rw [ho] at ho'
      obtain rfl := Option.some.inj ho'
      rw [hl, Option.some.inj (Kind.player.inj (hplays.kind.symm.trans hkind))]
    rcases hphase with hcalm | hswept
    · -- no call was reset so far
      have ho₁ : st₁.game.objects[r]? = some o := by rw [hcalm.going.game]; exact ho
      rw [broadcastTo_eq hgood₁ (hpins _ hmem) ho₁ hkind]
      by_cases hreset : (st₁.net.session s).ready = true ∧ (answer st₁).reset = true
      · rw [send_cut hreset.1 hreset.2]
        have hfree := hreset.1
        rw [hcalm.going.rest s hnew] at hfree
        refine (hcut before k r after s st₁ hlist hl hcalm hreset.1 hfree hreset.2).bind fun st₂ h₂ => .ok ?_
        obtain ⟨hgood₂, hreg₂, hdown, hswept⟩ := h₂
        refine ⟨hgood₂.resume rfl, hreg₂.unchanged (server_unchanged fun _ => rfl), .inr ?_⟩
        refine ⟨hswept.same, hswept.monsters, hswept.players, hswept.fewer, hswept.room, fun k' r' t hk' hl' => ?_⟩
        by_cases hts : t = s
        · rw [hts, server_same]
          simp [Session.ready, hdown]
        · rw [server_other _ hts]
          exact hswept.idle k' r' t hk' hl'
      · have hgoes : (st₁.net.session s).ready = true → (answer st₁).reset = false := by
          intro hready
          rw [← Bool.not_eq_true]
          exact fun hr => hreset ⟨hready, hr⟩
        obtain ⟨st₂, hst₂, hsent⟩ : ∃ st₂, Session.send disconnect s packet st₁ = .ok st₂ ∧ Sent s packet st₁ st₂ :=
          send_calm hgoes
        rw [hst₂]
        refine .ok ⟨hgood₁.resume hsent.game, hreg₁.unchanged hsent.unchanged, .inl ?_⟩
        rw [hcalm.going.rest s hnew] at hgoes
        exact hcalm.next habrupt hl hnew hheard hgoes hsent
    · -- no session is free any more
      obtain ⟨o₁, ho₁, -, hkind₁⟩ := hswept.same.find ho
      rw [broadcastTo_eq hgood₁ (hpins _ hmem) ho₁ (hkind₁.trans hkind), send_queued (hswept.idle k r s hk hl)]
      exact .ok ⟨hgood₁.resume rfl, hreg₁.unchanged (server_unchanged fun _ => rfl), .inr (hswept.queue s)⟩
  · rintro s ⟨r, -, hr⟩
    exact absurd hr List.not_mem_nil
  · obtain ⟨hgood, hreg', hphase⟩ := h'
    refine ⟨hgood, hreg', ?_⟩
    rcases hphase with hcalm | hswept
    · exact hcalm.swept h
    · exact hswept

/-! ## The nested calls -/

theorem callsAt_congr {l : List (UInt64 × Ref)} (hgame : st'.game = st.game)
    (h : ∀ item ∈ l, ∀ t, st.game.listener item.2 = some t → (st'.net.session t).ready = (st.net.session t).ready) :
    callsAt st' l = callsAt st l := by
  unfold callsAt
  refine List.filterMap_congr fun item hitem => ?_
  rw [hgame]
  cases hl : st.game.listener item.2 with
  | none => rfl
  | some t => simp [Option.filter, h item hitem t hl]

theorem callsAt_idle {l : List (UInt64 × Ref)}
    (h : ∀ item ∈ l, ∀ t, st.game.listener item.2 = some t → (st.net.session t).ready = false) : callsAt st l = [] := by
  unfold callsAt
  rw [List.filterMap_eq_nil_iff]
  intro item hitem
  cases hl : st.game.listener item.2 with
  | none => rfl
  | some t => simp [Option.filter, h item hitem t hl]

/-- The server while the removal of the player of `s` is broadcast. -/
def Server.removing (st₁ : Server Room) (s : SessionId) (packet : Packet) : Server Room := parting (called st₁ s packet) s

theorem removing_other {t : SessionId} (hts : t ≠ s) : (removing st₁ s packet).net.session t = st₁.net.session t :=
  (parting_other hts).trans (called_other hts)

theorem removing_down : ((removing st₁ s packet).net.session s).connected = false := by
  unfold removing Server.parting
  dsimp only
  rw [modify_same]

/-- The calls of a nested broadcast are those that were still to come. -/
theorem Calm.removing_calls (hc : Calm st packet before st₁) (h : Good Whoever st pins)
    (hlist : st.game.players.toList = before ++ (k, r) :: after) (hl : st.game.listener r = some s) :
    calls (removing st₁ s packet) = callsAt st after := by
  have hgame : (removing st₁ s packet).game = st.game := hc.going.game
  have hdown : ((removing st₁ s packet).net.session s).ready = false := by
    simp [Session.ready, removing_down]
  have hitem : ∀ item ∈ st.game.players.toList, ∀ t, st.game.listener item.2 = some t →
      item.1 = key item.2 ∧ (st.game.gameSessions t).player = some item.2 := by
    intro item hmem t ht
    obtain ⟨hkey, -, t', -, -, -, hl', hweak⟩ := h.listener (TreeMap.mem_toList_iff_getElem?_eq_some.1 hmem)
    rw [ht] at hl'
    obtain rfl := Option.some.inj hl'
    exact ⟨hkey, hweak⟩
  have hbefore : callsAt (removing st₁ s packet) before = [] := by
    refine callsAt_idle fun item hmem t ht => ?_
    rw [hgame] at ht
    by_cases hts : t = s
    · rw [hts]
      exact hdown
    · rw [removing_other hts]
      obtain ⟨hkey, hweak⟩ := hitem item (by rw [hlist]; exact List.mem_append_left _ hmem) t ht
      exact hc.idle t ⟨item.2, hweak, by rw [← hkey]; exact hmem⟩
  have hafter : callsAt (removing st₁ s packet) after = callsAt st after := by
    refine callsAt_congr hgame fun item hmem t ht => ?_
    obtain ⟨a₁, a₂, hsplit⟩ := List.append_of_mem hmem
    have hlist' : st.game.players.toList = (before ++ (k, r) :: a₁) ++ (item.1, item.2) :: a₂ := by
      rw [hlist, hsplit]
      simp
    obtain ⟨hkey, hweak⟩ := hitem item (by rw [hlist]; simp [hmem]) t ht
    have hnot := not_mem_before (y := item.2) hlist'
    have hts : t ≠ s := by
      intro hts
      rw [hts] at ht hweak
      obtain ⟨hkey', hweak'⟩ := hitem (k, r) (by rw [hlist]; simp) s hl
      rw [hweak] at hweak'
      rw [hkey, Option.some.inj hweak', ← hkey'] at hnot
      simp at hnot
    have hnew : ¬ st.game.toScene.Heard before t := by
      rintro ⟨r', hr', hin⟩
      rw [show (st.game.gameSessions t).player = some item.2 from hweak] at hr'
      obtain rfl := Option.some.inj hr'
      rw [hkey] at hnot
      exact hnot (List.mem_append_left _ hin)
    rw [removing_other hts, hc.going.rest t hnew]
  unfold calls
  rw [hgame, hlist, ← List.singleton_append, callsAt_append, callsAt_append, hbefore, hafter,
    callsAt_single (by rw [hgame]; exact hl), hdown]
  rfl

/-- The session that is reset is struck, and those that are struck in the nested calls. -/
theorem Calm.removing_struck (hc : Calm st packet before st₁) (h : Good Whoever st pins)
    (hlist : st.game.players.toList = before ++ (k, r) :: after) (hl : st.game.listener r = some s)
    (hready : (st.net.session s).ready = true) (hreset : (answer st₁).reset = true) (t : SessionId) :
    struck st t = (s == t || struck (removing st₁ s packet) t) := by
  have hanswers : (removing st₁ s packet).net.answers = st.net.answers.drop ((callsAt st before).length + 1) := by
    show st₁.net.answers.tail = _
    rw [hc.going.answers, List.tail_drop]
  rw [answer_drop hc.going.answers] at hreset
  cases ha : st.net.answers[(callsAt st before).length]? with
  | none =>
    rw [ha] at hreset
    exact absurd hreset Bool.false_ne_true
  | some a =>
    rw [ha, Option.getD_some] at hreset
    obtain ⟨hlt, hget⟩ := List.getElem?_eq_some_iff.1 ha
    have hsplit : st.net.answers = st.net.answers.take (callsAt st before).length ++
        a :: st.net.answers.drop ((callsAt st before).length + 1) := by
      rw [← hget, List.getElem_cons_drop, List.take_append_drop]
    have hlen : (callsAt st before).length = (st.net.answers.take (callsAt st before).length).length := by
      rw [List.length_take]
      omega
    unfold struck
    rw [hc.removing_calls h hlist hl, hanswers, calls_split hlist hl hready]
    conv_lhs => rw [hsplit, List.zip_append hlen, List.any_append, List.zip_cons_cons, List.any_cons]
    have hcalm : ((callsAt st before).zip (st.net.answers.take (callsAt st before).length)).any
        (fun call => call.1 == t && call.2.reset) = false := by
      rw [List.any_eq_false]
      rintro ⟨x, b⟩ hmem
      have hb := hc.going.spared b (List.of_mem_zip hmem).2
      simp [hb]
    rw [hcalm, Bool.false_or, hreset, Bool.and_true]

/-- Only a session that is free is struck. -/
theorem struck_ready (h : struck st s = true) : (st.net.session s).ready = true := by
  obtain ⟨a, hmem, -⟩ := struck_iff.1 h
  have hin := (List.of_mem_zip hmem).1
  unfold calls callsAt at hin
  obtain ⟨item, -, hfilter⟩ := List.mem_filterMap.1 hin
  exact (Option.filter_eq_some_iff.1 hfilter).2

/-- What is left of a broadcast when the player of `s`, whose call was reset, is discarded
after the nested broadcast of its removal. -/
theorem Swept.discard (hw : Swept st₁ st₂) (h : Good Whoever st pins) (hscene : st₁.game.toScene = st.game.toScene)
    (hk : st.game.players[k]? = some r) (hl : st.game.listener r = some s)
    (hstruck : ∀ t, struck st t = (s == t || struck st₁ t)) (hgame : st'.game = st₂.game.discard .players r k)
    (hnet : ∀ t, st'.net.session t = st₂.net.session t) : Swept st st' := by
  have hself : ∀ {k' : UInt64} {r' : Ref}, st.game.players[k']? = some r' → st.game.listener r' = some s → r' = r ∧ k' = k := by
    intro k' r' hk' hl'
    obtain ⟨hkey, -, t, -, -, -, ht, hweak⟩ := h.listener hk'
    obtain ⟨hkey₀, -, t₀, -, -, -, ht₀, hweak₀⟩ := h.listener hk
    rw [hl'] at ht
    rw [hl] at ht₀
    rw [← Option.some.inj ht] at hweak
    rw [← Option.some.inj ht₀, hweak] at hweak₀
    obtain rfl := Option.some.inj hweak₀
    exact ⟨rfl, hkey.trans hkey₀.symm⟩
  have hpl : st₁.game.players = st.game.players := congrArg Scene.players hscene
  have hli : st₁.game.listener = st.game.listener := by rw [hscene]
  have hscene' : st'.game.toScene = st₂.game.toScene.drop .players r k := by rw [hgame]; rfl
  have hplayers' : ∀ k' : UInt64, st'.game.players[k']? = if k = k' then none else st₂.game.players[k']? := by
    intro k'
    rw [show st'.game.players = st₂.game.players.erase k from congrArg Scene.players hscene', TreeMap.getElem?_erase]
    simp only [Std.compare_eq_iff_eq]
  refine ⟨?_, ?_, fun k' r' t hl' => ?_, fun k' r' hk' => ?_, fun k' r' t o' hk' hl' ho' => ?_, fun k' r' t hk' hl' => ?_⟩
  · rw [hscene', ← hscene]
    exact hw.same.trans drop_same
  · rw [show st'.game.monsters = st₂.game.monsters from (congrArg Scene.monsters hscene').trans rfl, hw.monsters]
    exact congrArg Scene.monsters hscene
  · rw [hplayers', hstruck]
    have hw' := hw.players k' r' t (by rw [hli]; exact hl')
    rw [hpl] at hw'
    by_cases hkk : k = k'
    · rw [if_pos hkk]
      refine ⟨fun hno => absurd hno.symm (Option.some_ne_none r'), fun ⟨hk', hfree⟩ => ?_⟩
      rw [← hkk, hk] at hk'
      rw [← Option.some.inj hk', hl] at hl'
      rw [Option.some.inj hl'] at hfree
      simp at hfree
    · rw [if_neg hkk, hw']
      refine ⟨fun ⟨hk', hfree⟩ => ⟨hk', ?_⟩, fun ⟨hk', hfree⟩ => ⟨hk', (Bool.or_eq_false_iff.1 hfree).2⟩⟩
      rw [hfree, Bool.or_false, beq_eq_false_iff_ne]
      intro hst
      rw [← hst] at hl'
      exact hkk (hself hk' hl').2.symm
  · rw [hplayers'] at hk'
    split at hk'
    · exact absurd hk'.symm (Option.some_ne_none r')
    · rw [← hpl]
      exact hw.fewer k' r' hk'
  · rw [hscene'] at ho'
    rw [hstruck]
    rcases drop_objects ho' with ⟨rfl, hroom⟩ | ⟨hne, ho⟩
    · rw [hl] at hl'
      rw [hroom, Option.some.inj hl']
      simp
    · rw [hw.room k' r' t o' (by rw [hpl]; exact hk') (by rw [hli]; exact hl') ho]
      have hst : (s == t) = false := by
        rw [beq_eq_false_iff_ne]
        intro hst
        rw [← hst] at hl'
        exact hne (hself hk' hl').1
      rw [hst, Bool.false_or]
  · rw [hnet]
    exact hw.idle k' r' t (by rw [hpl]; exact hk') (by rw [hli]; exact hl')

variable (parse)

/-- **`Disconnect` of the first session that is reset**, with the calls nested in it. -/
theorem cut_sweeps (hnested : ∀ {st : Server Room} {pins : List Ref} {leaving : SessionId → Prop} (packet : Packet),
      Good Whoever st pins → Registered st.net leaving → Abrupt st → st.net.manager.card ≤ n →
      Returns (Game.broadcastCopy (api (copyContent parse) (n + 1)).send packet st) fun st' =>
        Good Whoever st' pins ∧ Registered st'.net leaving ∧ Swept st st')
    (h : Good Whoever st pins) (hreg : Registered st.net leaving) (habrupt : Abrupt st) (hcard : st.net.manager.card ≤ n + 1)
    (hlist : st.game.players.toList = before ++ (k, r) :: after) (hl : st.game.listener r = some s)
    (hc : Calm st packet before st₁) (hready : (st₁.net.session s).ready = true) (hreset : (answer st₁).reset = true)
    (hfree : (st.net.session s).ready = true) :
    Returns (Session.disconnect (GameSession.onDisconnected (copyContent parse) (api (copyContent parse) (n + 1))) s
      (called st₁ s packet)) fun st' => Good Whoever st' pins ∧ Registered st'.net leaving ∧
        (st'.net.session s).connected = false ∧ Swept st st' := by
  have hmem : st.game.players[k]? = some r := getElem?_of_toList hlist
  obtain ⟨hkey, o, s', ho, hplays, -, hl', hweak⟩ := h.listener hmem
  rw [hl] at hl'
  obtain rfl := Option.some.inj hl'
  have hgame : (removing st₁ s packet).game = st.game := hc.going.game
  have hu : Unchanged st.net (called st₁ s packet).net := hc.going.unchanged.trans called_unchanged
  have hup : ((called st₁ s packet).net.session s).connected = true := by
    unfold Session.ready at hready
    exact (called_unchanged.connected s).trans (Bool.and_eq_true_iff.1 hready).1
  have hpart : Good Whoever (removing st₁ s packet) pins := h.resume hgame
  have hreg₁ := hreg.unchanged hu
  have hns : ¬ leaving s := fun hleaving => by simp [hreg₁.gone s hleaving] at hup
  have hin : (removing st₁ s packet).game.Inside r := by
    rw [hgame]
    exact .inl (hkey ▸ hmem)
  have ho₁ : (removing st₁ s packet).game.objects[r]? = some o := by
    rw [hgame]
    exact ho
  unfold Session.disconnect
  rw [if_neg (by rw [show ((called st₁ s packet).session s).connected = true from hup]; exact Bool.noConfusion)]
  show Returns (Game.leaveRoomBy (Game.broadcastCopy (api (copyContent parse) (n + 1)).send) s (removing st₁ s packet) >>= _) _
  -- LeaveRoom and RemoveObject
  have hfound : (removing st₁ s packet).game.findObject o.info.objectid = some r := by
    unfold Scene.findObject
    rw [hgame, h.core.id r o ho, ← hkey, hmem]
  have hleave : Game.leaveRoomBy (Game.broadcastCopy (api (copyContent parse) (n + 1)).send) s (removing st₁ s packet) =
      Game.removeObjectBy (Game.broadcastCopy (api (copyContent parse) (n + 1)).send) o.info.objectid (removing st₁ s packet) := by
    unfold Game.leaveRoomBy
    rw [show ((removing st₁ s packet).game.gameSessions s).player = some r by rw [hgame]; exact hweak,
      lock_some (hpart.useCount (.inl hin))]
    dsimp only
    rw [hpart.deref ho₁ (.inl hin), ok_bind]
  rw [hleave]
  unfold Game.removeObjectBy
  rw [hfound]
  dsimp only
  obtain ⟨p, hp, -⟩ := make_ok (.removeObject [o.info.objectid]) (removeObject_length _)
  rw [show ServerPacketHandler.makeSRemoveObject [o.info.objectid] = .ok p from hp, ok_bind, bind_assoc]
  have hgood₂ : Good Whoever (Game.update (removing st₁ s packet) (·.retain r)) (r :: pins) := hpart.retain
  have hreg₂ : Registered (Game.update (removing st₁ s packet) (·.retain r)).net fun t => leaving t ∨ t = s := hreg₁.leave hup
  have habrupt₂ : Abrupt (Game.update (removing st₁ s packet) (·.retain r)) := by
    intro a ha
    have ha : a ∈ st₁.net.answers.tail := ha
    rw [hc.going.answers] at ha
    exact habrupt a (List.mem_of_mem_drop (List.mem_of_mem_tail ha))
  have hcard₂ : (Game.update (removing st₁ s packet) (·.retain r)).net.manager.card ≤ n := by
    have hins : s ∈ (called st₁ s packet).net.manager := (hreg₁.manager s).2 hup
    have hone := Finset.card_erase_add_one hins
    rw [hu.manager] at hone
    show ((called st₁ s packet).net.manager.erase s).card ≤ n
    rw [hu.manager]
    omega
  refine (hnested p hgood₂ hreg₂ habrupt₂ hcard₂).bind fun st₃ h₃ => ?_
  obtain ⟨hgood₃, hreg₃, hswept⟩ := h₃
  obtain ⟨o₃, ho₃, hinfo₃, -⟩ := hswept.same.find ho₁
  have htype : o₃.info.objecttype = .player := by rw [hinfo₃]; exact hplays.type
  -- the player is still in the room
  have hdown : ((removing st₁ s packet).net.session s).ready = false := by simp [Session.ready, removing_down]
  have hunstruck : struck (Game.update (removing st₁ s packet) (·.retain r)) s = false := by
    rw [← Bool.not_eq_true]
    intro hstruck
    rw [show ((removing st₁ s packet).net.session s).ready = true from struck_ready hstruck] at hdown
    exact absurd hdown.symm Bool.false_ne_true
  have hmem₃ : st₃.game.players[k]? = some r := by
    refine (hswept.players k r s ?_).2 ⟨?_, hunstruck⟩
    · show (removing st₁ s packet).game.listener r = some s
      rw [hgame]
      exact hl
    · show (removing st₁ s packet).game.players[k]? = some r
      rw [hgame]
      exact hmem
  rw [hgood₃.deref ho₃ (.inr List.mem_cons_self), ok_bind]
  simp only [htype, ObjectType.roster]
  rw [ok_bind, show o.info.objectid = k from (h.core.id r o ho).trans hkey.symm]
  have hgood₄ : Good Whoever (Game.update st₃ (·.discard .players r k)) pins := hgood₃.discard hmem₃ ho₃ (by rw [htype]; rfl)
  -- ReleaseSession
  have hins : s ∈ st₃.net.sessions := (hreg₃.sessions s).2 (.inr (.inr rfl))
  have hrelease := hreg₃.release hns
  unfold Service.releaseSession at hrelease ⊢
  rw [if_pos hins] at hrelease
  show Returns ((if s ∈ st₃.net.sessions then _ else _) >>= _) _
  rw [if_pos hins, ok_bind]
  refine .ok ⟨hgood₄.resume rfl, (hrelease.result rfl).1, hreg₃.gone s (.inr rfl), ?_⟩
  refine hswept.discard h ?_ hmem hl (hc.removing_struck h hlist hl hfree hreset) rfl fun _ => rfl
  show (removing st₁ s packet).game.toScene = st.game.toScene
  rw [hgame]

/-- **A broadcast over a copy** returns, whatever is reset, by induction on the number of
connected sessions. -/
theorem broadcast_sweeps (n : ℕ) (packet : Packet) (h : Good Whoever st pins) (hreg : Registered st.net leaving)
    (habrupt : Abrupt st) (hcard : st.net.manager.card ≤ n) :
    Returns (Game.broadcastCopy (api (copyContent parse) (n + 1)).send packet st) fun st' =>
      Good Whoever st' pins ∧ Registered st'.net leaving ∧ Swept st st' := by
  have hgood := h.retainAll (st.game.players.toList.map Prod.snd)
  have hpins : ∀ item ∈ st.game.players.toList, item.2 ∈ st.game.players.toList.map Prod.snd ++ pins :=
    fun item hitem => List.mem_append_left _ (List.mem_map_of_mem hitem)
  induction n generalizing st pins leaving packet with
  | zero =>
    refine (sweep_loop hgood hpins hreg habrupt ?_).bind fun st' h' => .ok ⟨h'.1.releaseAll, h'.2.1, ?_⟩
    · intro before k r after s st₁ hlist hl hc hready
      -- nobody is connected
      unfold Session.ready at hready
      have hmem := ((hreg.unchanged hc.going.unchanged).manager s).2 (Bool.and_eq_true_iff.1 hready).1
      have hmanager : st₁.net.manager = st.net.manager := hc.going.unchanged.manager
      rw [hmanager, Finset.card_eq_zero.1 (Nat.le_zero.1 hcard)] at hmem
      exact absurd hmem (Finset.notMem_empty s)
    · exact ⟨h'.2.2.same, h'.2.2.monsters, h'.2.2.players, h'.2.2.fewer, h'.2.2.room, h'.2.2.idle⟩
  | succ n ih =>
    refine (sweep_loop hgood hpins hreg habrupt ?_).bind fun st' h' => .ok ⟨h'.1.releaseAll, h'.2.1, ?_⟩
    · intro before k r after s st₁ hlist hl hc hready hfree hreset
      refine cut_sweeps parse (fun packet h hreg habrupt hcard => ?_) hgood hreg habrupt hcard hlist hl hc hready hreset hfree
      exact ih packet h hreg habrupt hcard (h.retainAll _) fun item hitem => List.mem_append_left _ (List.mem_map_of_mem hitem)
    · exact ⟨h'.2.2.same, h'.2.2.monsters, h'.2.2.players, h'.2.2.fewer, h'.2.2.room, h'.2.2.idle⟩

/-! ## When no session is free -/

/-- A send to a player in the room calls nothing. -/
def Server.Idle (st : Server Room) : Prop := ∀ s, st.game.toScene.Audience s → (st.net.session s).ready = false

theorem Server.Idle.of_scene (h : Idle st) (hnet : st'.net = st.net) (hplayers : st'.game.players = st.game.players)
    (hsessions : st'.game.gameSessions = st.game.gameSessions) : Idle st' := by
  intro s hs
  unfold Scene.Audience at hs
  rw [hplayers, hsessions] at hs
  rw [hnet]
  exact h s hs

/-- After a sweep. -/
theorem Swept.toIdle (hw : Swept st st') (h : Good Whoever st pins) : Idle st' := by
  rintro s ⟨r, hweak, hk⟩
  rw [hw.same.gameSessions] at hweak
  have hk₀ := hw.fewer _ r hk
  obtain ⟨-, o, s', ho, hplays, -, hl, -⟩ := h.listener hk₀
  obtain ⟨o', ho', hplays'⟩ := h.core.weak s r hweak
  rw [show st.game.objects[r]? = some o' from ho'] at ho
  obtain rfl := Option.some.inj ho
  rw [Option.some.inj (Kind.player.inj (hplays.kind.symm.trans hplays'.kind))] at hl
  exact hw.idle _ r s hk₀ hl

variable {parse} (disconnect : SessionId → Server Room → Outcome (Server Room))

/-- **A broadcast that calls nothing** leaves the room as it is. -/
theorem broadcast_idle (h : Good Whoever st pins) (hidle : Idle st) (packet : Packet) :
    Returns (Game.broadcastCopy (Session.send disconnect) packet st) fun st' => st'.game = st.game ∧ Idle st' := by
  have hgood := h.retainAll (st.game.players.toList.map Prod.snd)
  refine (Post.foldlM (I := fun st₁ : Server Room => st₁.game = st.game.retainAll (st.game.players.toList.map Prod.snd) ∧
    Idle st₁) (s := Game.update st (·.retainAll (st.game.players.toList.map Prod.snd)))
    _ ?_ ⟨rfl, hidle.of_scene rfl rfl rfl⟩).bind fun st₁ h₁ => .ok ⟨?_, ?_⟩
  · intro st₁ item hitem h₁
    obtain ⟨hgame, hidle₁⟩ := h₁
    have hk := TreeMap.mem_toList_iff_getElem?_eq_some.1 hitem
    obtain ⟨hkey, o, s, ho, hplays, -, -, hweak⟩ := h.listener hk
    have hgood₁ : Good Whoever st₁ (st.game.players.toList.map Prod.snd ++ pins) := hgood.resume hgame
    have ho₁ : st₁.game.objects[item.2]? = some o := by rw [hgame]; exact ho
    have haudience : st₁.game.toScene.Audience s := by
      rw [hgame]
      exact ⟨item.2, hweak, hkey ▸ hk⟩
    rw [broadcastTo_eq hgood₁ (List.mem_append_left _ (List.mem_map_of_mem hitem)) ho₁ hplays.kind, send_queued (hidle₁ s haudience)]
    refine .ok ⟨hgame, fun t ht => ?_⟩
    by_cases hts : t = s
    · rw [hts, server_same]
      simp [Session.ready, Session.waiting]
    · rw [server_other _ hts]
      exact hidle₁ t ht
  · show st₁.game.releaseAll _ = st.game
    rw [h₁.1]
    unfold Room.releaseAll Room.retainAll
    simp
  · exact h₁.2.of_scene rfl rfl rfl

/-- The hp of the target, and `S_Attack`. -/
theorem damageBy_idle (h : Good Whoever st pins) (hshort : st.game.toScene.Short) (hidle : Idle st) {attacker target : Ref}
    {a t : GameObject} (hne : attacker ≠ target) (hina : st.game.Inside attacker) (hint : st.game.Inside target)
    (ha : st.game.objects[attacker]? = some a) (ht : st.game.objects[target]? = some t) :
    Returns (Game.damageBy (Game.broadcastCopy (Session.send disconnect)) attacker target st) fun st' =>
      st'.game = st.game.modifyInfo target (·.hurt a.info.attack) ∧ Idle st' := by
  obtain ⟨h₁, ht₁, ha₁⟩ := h.hurt a.info.attack hne ha ht
  have hroom : a.room = true := h.core.room_of hina ha
  obtain ⟨p, hmake, -⟩ := make_ok (.attack (t.info.hurt a.info.attack) a.info)
    (attack_length (t.info.hurt a.info.attack) _ (hshort target t ht) (hshort attacker a ha))
  unfold Game.damageBy
  rw [h.deref ha (.inl hina), ok_bind]
  change Returns ((Game.update st (·.modifyInfo target (·.hurt a.info.attack))).game.deref target >>= fun t =>
    (Game.update st (·.modifyInfo target (·.hurt a.info.attack))).game.deref attacker >>= fun a' =>
      Game.broadcastAttackBy (Game.broadcastCopy (Session.send disconnect)) attacker t.info a'.info
        (Game.update st (·.modifyInfo target (·.hurt a.info.attack)))) _
  rw [h₁.deref ht₁ (.inl hint), ok_bind, h₁.deref ha₁ (.inl hina), ok_bind]
  unfold Game.broadcastAttackBy ServerPacketHandler.makeSAttack
  rw [h₁.deref ha₁ (.inl hina), ok_bind, if_pos hroom, hmake, ok_bind]
  exact broadcast_idle disconnect h₁ (hidle.of_scene rfl rfl rfl) p

/-- `Player::Attack` of a player in the room returns if nothing is called meanwhile. -/
theorem attackBy_idle (h : Good Whoever st pins) (hshort : st.game.toScene.Short) (hidle : Idle st) (hin : st.game.Inside r)
    (ho : st.game.objects[r]? = some o) (hp : o.info.objecttype = .player) :
    ∃ st', Game.attackBy (Game.broadcastCopy (Session.send disconnect)) r st = .ok st' := by
  have hroom : o.room = true := h.core.room_of hin ho
  unfold Game.attackBy
  rw [h.deref ho (.inl hin), ok_bind, if_neg (by rw [hroom]; exact Bool.noConfusion)]
  obtain ⟨ret, hret, hsome, -⟩ := returns_iff.1 (h.getGameObjectAt o.getFrontCellPos)
  rw [hret, ok_bind]
  cases ret with
  | none => exact ⟨st, rfl⟩
  | some target =>
    obtain ⟨hint, t, ht, -⟩ := hsome target rfl
    have h₁ : Good Whoever (Game.update st (·.retain target)) (target :: pins) := h.retain
    dsimp only
    rw [h₁.deref ht (.inl hint), ok_bind]
    by_cases hmonster : t.info.objecttype = .monster
    · have hne : r ≠ target := by
        intro heq
        rw [heq, ht] at ho
        rw [Option.some.inj ho, hp] at hmonster
        cases hmonster
      rw [if_pos hmonster]
      obtain ⟨st₂, hst₂, hgame₂, hidle₂⟩ := returns_iff.1 (damageBy_idle disconnect h₁ hshort
        (hidle.of_scene rfl rfl rfl) hne hin hint ho ht)
      rw [hst₂, ok_bind]
      have h₂ : Good Whoever st₂ (target :: pins) :=
        (h₁.modifyInfo (r := target) (f := (·.hurt o.info.attack)) (fun _ => rfl) fun _ => rfl).resume hgame₂
      obtain ⟨ht₂, ho₂⟩ := hurt_objects hgame₂ hne ho ht
      have hin₂ : st₂.game.Inside r := by
        rw [hgame₂]
        exact hin
      rw [h₂.deref ht₂ (.inr List.mem_cons_self), ok_bind]
      dsimp only
      by_cases hdead : (t.info.hurt o.info.attack).hp ≤ 0
      · rw [if_pos hdead, h₂.deref ho₂ (.inl hin₂), ok_bind, if_neg (by rw [hroom]; exact Bool.noConfusion)]
        obtain ⟨st₃, hst₃, -⟩ := returns_iff.1 (removeObject_post (F := fun _ => False)
          (Game.broadcastCopy (Session.send disconnect)) h₂ (t.info.hurt o.info.attack).objectid
          fun packet st₁ pins hgood hnet hscene => (broadcast_idle disconnect hgood (hidle₂.of_scene hnet
            (congrArg Scene.players hscene) (congrArg Scene.gameSessions hscene)) packet).imp fun st' h' => h'.1)
        rw [hst₃]
        exact ⟨_, rfl⟩
      · rw [if_neg hdead]
        exact ⟨_, rfl⟩
    · rw [if_neg hmonster]
      exact ⟨_, rfl⟩

/-! ## Handle_C_Move -/

/-- The packet can be told, it makes a player attack, and the call of `WSASend` for that
player in the broadcast of `S_Move` is reset. -/
def Server.Doomed (st : Server Room) (pkt : CMove) : Prop :=
  (∃ p, ServerPacketHandler.makeSMove pkt.info = .ok p) ∧ pkt.info.state = .skill ∧
    ∃ r s, st.game.players[pkt.info.objectid]? = some r ∧ st.game.listener r = some s ∧ struck st s = true

/-- The state in which `S_Move` is broadcast. -/
def Server.moved (st : Server Room) (pkt : CMove) (r : Ref) : Server Room :=
  Game.update (Game.update st (·.retain r)) (·.modifyInfo r (·.follow pkt.info))

variable {pkt : CMove}

theorem listener_modifyInfo {sc : Scene} {f : ObjectInfo → ObjectInfo} (x : Ref) :
    (sc.modifyInfo r f).listener x = sc.listener x := by
  unfold Scene.listener Scene.modifyInfo Scene.modify
  dsimp only
  rw [List.getElem?_modify]
  cases sc.objects[x]? with
  | none => rfl
  | some o => by_cases hr : r = x <;> simp [hr]

theorem moved_listener (x : Ref) : (moved st pkt r).game.listener x = st.game.listener x :=
  listener_modifyInfo (r := r) (f := (·.follow pkt.info)) x

theorem moved_struck : struck (moved st pkt r) s = struck st s := by
  have hcalls : calls (moved st pkt r) = calls st := by
    unfold calls callsAt
    refine List.filterMap_congr fun item _ => ?_
    rw [moved_listener]
    rfl
  unfold struck
  rw [hcalls]
  rfl

variable (parse)

/-- The handler, when the packet can be told. -/
theorem handleCMove_outcome (h : Orderly st) (habrupt : Abrupt st) (hcard : st.net.manager.card ≤ n)
    (hp : ServerPacketHandler.makeSMove pkt.info = .ok packet) :
    (¬ Doomed st pkt → ∃ st', Game.handleCMoveBy (Game.broadcastCopy (api (copyContent parse) (n + 1)).send) pkt st = .ok st') ∧
    (Doomed st pkt → Game.handleCMoveBy (Game.broadcastCopy (api (copyContent parse) (n + 1)).send) pkt st = .error .undefined) := by
  unfold Game.handleCMoveBy
  cases hf : st.game.findObject pkt.info.objectid with
  | none =>
    refine ⟨fun _ => ⟨st, rfl⟩, fun hdoomed => ?_⟩
    obtain ⟨-, -, r, s, hk, -⟩ := hdoomed
    unfold Scene.findObject at hf
    rw [hk] at hf
    exact absurd hf (Option.some_ne_none r)
  | some r =>
    obtain ⟨hid, o, which, ho, ht, hmem⟩ := h.good.core.found hf
    have hgood₁ : Good Whoever (moved st pkt r) [r] := h.good.retain.modifyInfo (fun _ => rfl) fun _ => rfl
    have ho₁ : (moved st pkt r).game.objects[r]? = some { o with info := o.info.follow pkt.info } := modify_self ho
    have hshort₁ : (moved st pkt r).game.toScene.Short := h.short.modify fun _ => rfl
    dsimp only
    rw [hp, ok_bind]
    change (¬ Doomed st pkt → ∃ st',
      (Game.broadcastCopy (api (copyContent parse) (n + 1)).send packet (moved st pkt r) >>= _) = .ok st') ∧
      (Doomed st pkt → (Game.broadcastCopy (api (copyContent parse) (n + 1)).send packet (moved st pkt r) >>= _) = .error .undefined)
    obtain ⟨st₂, hst₂, hgood₂, -, hswept⟩ := returns_iff.1
      (broadcast_sweeps parse n packet hgood₁ (show Registered (moved st pkt r).net fun _ => False from h.registered) habrupt hcard)
    rw [hst₂, ok_bind]
    obtain ⟨o₂, ho₂, hinfo₂, hkind₂⟩ := hswept.same.find ho₁
    have hstate₂ : o₂.info.state = pkt.info.state := by rw [hinfo₂]; rfl
    rw [hgood₂.deref ho₂ (.inr List.mem_cons_self), ok_bind]
    by_cases hskill : pkt.info.state = .skill
    · rw [if_pos (hstate₂.trans hskill), hkind₂]
      dsimp only
      have htyped := h.good.core.typed r o ho
      unfold GameObject.Typed at htyped
      cases hkind : o.kind with
      | monster fields =>
        refine ⟨fun _ => ⟨_, rfl⟩, fun hdoomed => ?_⟩
        obtain ⟨-, -, r', s, hk, hl, -⟩ := hdoomed
        unfold Scene.findObject at hf
        rw [hk] at hf
        obtain rfl := Option.some.inj hf
        unfold Scene.listener at hl
        rw [show st.game.objects[r']? = some o from ho] at hl
        dsimp only at hl
        rw [hkind] at hl
        exact absurd hl.symm (Option.some_ne_none s)
      | player session =>
        rw [hkind] at htyped
        have hplayer : o.info.objecttype = .player := htyped
        rw [hplayer] at ht
        obtain rfl := Option.some.inj ht
        have hk : st.game.players[pkt.info.objectid]? = some r := hmem
        obtain ⟨hkey, -, s, -, -, -, hl, -⟩ := h.good.listener hk
        have hl₁ : (moved st pkt r).game.listener r = some s := (moved_listener r).trans hl
        have hroom₂ := hswept.room _ r s o₂ hk hl₁ ho₂
        rw [moved_struck] at hroom₂
        have hgood₃ : Good Whoever (Game.update st₂ (·.retain r)) [r, r] := hgood₂.retain
        dsimp only
        cases hstruck : struck st s with
        | true =>
          rw [hstruck] at hroom₂
          refine ⟨fun hno => absurd ⟨⟨packet, hp⟩, hskill, r, s, hk, hl, hstruck⟩ hno, fun _ => ?_⟩
          unfold Game.attackBy
          rw [hgood₃.deref ho₂ (.inr List.mem_cons_self), ok_bind, if_pos (show o₂.room = false from hroom₂)]
          rfl
        | false =>
          refine ⟨fun _ => ?_, fun hdoomed => ?_⟩
          · have hin₂ : st₂.game.Inside r := by
              left
              rw [← hkey]
              exact (hswept.players _ r s hl₁).2 ⟨hk, by rw [moved_struck]; exact hstruck⟩
            have htype₂ : o₂.info.objecttype = .player := by
              rw [hinfo₂]
              exact hplayer
            have hidle : Idle (Game.update st₂ (·.retain r)) := (hswept.toIdle hgood₁).of_scene rfl rfl rfl
            obtain ⟨st₃, hst₃⟩ := attackBy_idle (Session.disconnect (GameSession.onDisconnected (copyContent parse)
              (api (copyContent parse) n))) hgood₃ (hshort₁.same hswept.same) hidle hin₂ ho₂ htype₂
            rw [show Game.attackBy (Game.broadcastCopy (api (copyContent parse) (n + 1)).send) r
                (Game.update st₂ (·.retain r)) = .ok st₃
              from hst₃]
            exact ⟨_, rfl⟩
          · obtain ⟨-, -, r', s', hk', hl', hstruck'⟩ := hdoomed
            rw [hk] at hk'
            obtain rfl := Option.some.inj hk'
            rw [hl] at hl'
            obtain rfl := Option.some.inj hl'
            rw [hstruck] at hstruck'
            exact absurd hstruck' Bool.false_ne_true
    · rw [if_neg (by rw [hstate₂]; exact hskill)]
      refine ⟨fun _ => ⟨_, rfl⟩, fun hdoomed => absurd hdoomed.2.1 hskill⟩

variable {parse}

/-- **Attacks and the pointer to the room.** In a room in order whose `Broadcast` goes
through a copy of the players, if every call of `WSASend` goes out or is reset: the handler
of a `C_Move` that can be told meets no null pointer to the room, and returns, unless the
packet makes a player attack whose own call in the broadcast of `S_Move` is reset. Then
`Attack` dereferences the pointer that `RemoveObject` has cleared. -/
theorem attack_with_room (h : Orderly st) (habrupt : Abrupt st) :
    ((∀ p, ServerPacketHandler.makeSMove pkt.info = .ok p → ∃ n, ∀ depth, n ≤ depth →
      ∃ st', Game.handleCMoveBy (Game.broadcastCopy (api (copyContent parse) depth).send) pkt st = .ok st') ↔ ¬ Doomed st pkt) ∧
    (Doomed st pkt → ∃ n, ∀ depth, n ≤ depth →
      Game.handleCMoveBy (Game.broadcastCopy (api (copyContent parse) depth).send) pkt st = .error .undefined) := by
  have hdepth : ∀ depth, st.net.manager.card + 1 ≤ depth → ∃ n, depth = n + 1 ∧ st.net.manager.card ≤ n := by
    intro depth hle
    refine ⟨depth - 1, ?_, ?_⟩ <;> omega
  have hdies : Doomed st pkt → ∀ depth, st.net.manager.card + 1 ≤ depth →
      Game.handleCMoveBy (Game.broadcastCopy (api (copyContent parse) depth).send) pkt st = .error .undefined := by
    intro hdoomed depth hle
    obtain ⟨n, rfl, hcard⟩ := hdepth depth hle
    obtain ⟨p, hp⟩ := hdoomed.1
    exact (handleCMove_outcome parse h habrupt hcard hp).2 hdoomed
  refine ⟨⟨fun hsafe hdoomed => ?_, fun hspared p hp => ⟨st.net.manager.card + 1, fun depth hle => ?_⟩⟩,
    fun hdoomed => ⟨_, hdies hdoomed⟩⟩
  · obtain ⟨p, hp⟩ := hdoomed.1
    obtain ⟨n, hn⟩ := hsafe p hp
    obtain ⟨st', hst'⟩ := hn (n + (st.net.manager.card + 1)) (Nat.le_add_right _ _)
    rw [hdies hdoomed _ (Nat.le_add_left _ _)] at hst'
    exact absurd hst' (by simp)
  · obtain ⟨n, rfl, hcard⟩ := hdepth depth hle
    exact (handleCMove_outcome parse h habrupt hcard hp).1 hspared

/-- One session is in the room, and nothing is under way to it. -/
def loner : List Round := [{ turn := .dispatch (.accept 0 true 0) }, { turn := .dispatch (.sent 0 1) },
  { turn := .dispatch (.sent 0 1) }]

theorem loner_run : ∃ st₀ st, boot (fun _ => {}) 20 {} 1 = .ok st₀ ∧ Runs (Leads fun _ => {}) st₀ loner st ∧
    st.game.players[(2 : UInt64)]? = some 1 ∧ st.game.listener 1 = some 0 ∧
    struck (answering st [.success]) 0 = false ∧ struck (answering st [.socketError 10054]) 0 = true := by
  have hrun : (playExec loner).map (fun st => (st.game.players[(2 : UInt64)]?, st.game.listener 1,
      struck (answering st [.success]) 0, struck (answering st [.socketError 10054]) 0)) =
      some (some 1, some 0, false, true) := by decide +kernel
  obtain ⟨st, hst, heq⟩ := Option.map_eq_some_iff.1 hrun
  simp only [Prod.mk.injEq] at heq
  obtain ⟨st₀, hboot, hruns⟩ := playExec_runs hst
  exact ⟨st₀, st, hboot, hruns, heq⟩

theorem loner_orderly {st₀ : Server Room} (hboot : boot (fun _ => {}) 20 {} 1 = .ok st₀)
    (hruns : Runs (Leads fun _ => {}) st₀ loner st) (answers : List WsaResult) : Orderly (answering st answers) :=
  (run_orderly hboot hruns).answering answers

/-- The attack of a player whose call goes out. -/
theorem attack_with_room_example : ∃ st₀ st, boot (fun _ => {}) 20 {} 1 = .ok st₀ ∧ Runs (Leads fun _ => {}) st₀ loner st ∧
    ∃ p, ServerPacketHandler.makeSMove (swing 2).info = .ok p ∧ ∃ n, ∀ depth, n ≤ depth →
      ∃ st', Game.handleCMoveBy (Game.broadcastCopy (api (copyContent fun _ => {}) depth).send) (swing 2)
        (answering st [.success]) = .ok st' := by
  obtain ⟨st₀, st, hboot, hruns, hplayer, hlistener, hfree, -⟩ := loner_run
  obtain ⟨p, hp, -⟩ := make_ok (.move (swing 2).info) (by decide)
  refine ⟨st₀, st, hboot, hruns, p, hp, (attack_with_room (loner_orderly hboot hruns [.success]) ?_).1.2 ?_ p hp⟩
  · intro answer hanswer
    rw [List.mem_singleton.1 hanswer]
    exact .inl rfl
  · rintro ⟨-, -, r, s, hk, hl, hstruck⟩
    rw [show (answering st [.success]).game.players[(swing 2).info.objectid]? = some 1 from hplayer] at hk
    obtain rfl := Option.some.inj hk
    rw [show (answering st [.success]).game.listener 1 = some 0 from hlistener] at hl
    rw [← Option.some.inj hl, hfree] at hstruck
    exact absurd hstruck Bool.false_ne_true

/-- The call for the attacking player is reset: its pointer to the room is null when it
attacks. -/
theorem attack_without_room : ∃ st₀ st, boot (fun _ => {}) 20 {} 1 = .ok st₀ ∧ Runs (Leads fun _ => {}) st₀ loner st ∧
    st.game.players[(2 : UInt64)]? = some 1 ∧ st.game.listener 1 = some 0 ∧
    (∃ n, ∀ depth, n ≤ depth → Game.handleCMoveBy (Game.broadcastCopy (api (copyContent fun _ => {}) depth).send) (swing 2)
      (answering st [.socketError 10054]) = .error .undefined) ∧
    ¬ ∀ p, ServerPacketHandler.makeSMove (swing 2).info = .ok p → ∃ n, ∀ depth, n ≤ depth →
      ∃ st', Game.handleCMoveBy (Game.broadcastCopy (api (copyContent fun _ => {}) depth).send) (swing 2)
        (answering st [.socketError 10054]) = .ok st' := by
  obtain ⟨st₀, st, hboot, hruns, hplayer, hlistener, -, hstruck⟩ := loner_run
  obtain ⟨p, hp, -⟩ := make_ok (.move (swing 2).info) (by decide)
  have habrupt : Abrupt (answering st [.socketError 10054]) := by
    intro answer hanswer
    rw [List.mem_singleton.1 hanswer]
    exact .inr rfl
  have hdoomed : Doomed (answering st [.socketError 10054]) (swing 2) := ⟨⟨p, hp⟩, rfl, 1, 0, hplayer, hlistener, hstruck⟩
  have hdies : ∀ depth, st.net.manager.card + 1 ≤ depth →
      Game.handleCMoveBy (Game.broadcastCopy (api (copyContent fun _ => {}) depth).send) (swing 2)
        (answering st [.socketError 10054]) = .error .undefined := by
    intro depth hle
    have hdepth : depth = (depth - 1) + 1 := by omega
    rw [hdepth]
    exact (handleCMove_outcome _ (loner_orderly hboot hruns _) habrupt (Nat.le_sub_one_of_lt hle) hp).2 hdoomed
  refine ⟨st₀, st, hboot, hruns, hplayer, hlistener, ⟨_, hdies⟩, fun hsafe => ?_⟩
  obtain ⟨n, hn⟩ := hsafe p hp
  obtain ⟨st', hst'⟩ := hn (n + (st.net.manager.card + 1)) (Nat.le_add_right _ _)
  rw [hdies _ (Nat.le_add_left _ _)] at hst'
  exact absurd hst' (by simp)

end ZeldaServer
