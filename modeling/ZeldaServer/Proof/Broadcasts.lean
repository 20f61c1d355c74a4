import ZeldaServer.Proof.Monsters
import ZeldaServer.Spec.Outbox

/-!
# Broadcasts to outboxes

With sends that do not fail, a broadcast appends its message to the outbox of every
player in the room, once, and an operation on the room is a run of acts.

* `broadcast_post`, `speaks_post`: `Broadcast` of `post`.
* `roomStep_acts`: what each operation performs.
-/

namespace ZeldaServer

open Lib Std

variable {fuel : ℕ} {pick : Pick} {st st' : Game Outboxes}
  {v v' : Stage Outboxes} {pins : List Ref} {r : Ref} {o : GameObject} {id : UInt64} {sc sc' : Scene}

/-- The session has a player in the room. -/
def Scene.Audience (sc : Scene) (session : SessionId) : Prop :=
  ∃ r, (sc.gameSessions session).player = some r ∧ sc.players[key r]? = some r

/-- The session has its player among these elements of `_players`. -/
def Scene.Heard (sc : Scene) (before : List (UInt64 × Ref)) (session : SessionId) : Prop :=
  ∃ r, (sc.gameSessions session).player = some r ∧ (key r, r) ∈ before

/-- The sessions of `P` are sent `msg`. -/
def ToldTo (P : SessionId → Prop) (msg : Msg) (net net' : Outboxes) : Prop :=
  ∀ s, (P s → net' s = net s ++ [msg]) ∧ (¬ P s → net' s = net s)

/-- The effect of a broadcast. -/
def Told (sc : Scene) : Msg → Outboxes → Outboxes → Prop := ToldTo sc.Audience

/-- The effect of a send to one session. -/
def Whisper (session : SessionId) (msg : Msg) (net net' : Outboxes) : Prop :=
  net' = Function.update net session (net session ++ [msg])

/-- Nothing needs to be known about the sessions. -/
def Anyone : SessionId → Outboxes → Prop := fun _ _ => True

section

variable {ν : Type} {W : SessionId → ν → Prop} {st : Game ν} {v : Stage ν}

/-- The key of an element is no key of those before it. -/
theorem not_mem_before {m : TreeMap UInt64 Ref} {before after : List (UInt64 × Ref)} {k : UInt64} {x y : Ref}
    (h : m.toList = before ++ (k, x) :: after) : (k, y) ∉ before := by
  intro hmem
  have hsorted := m.ordered_keys_toList
  rw [h, List.pairwise_append] at hsorted
  have hlt := hsorted.2.2 _ hmem _ List.mem_cons_self
  exact absurd (Std.compare_eq_iff_eq.2 rfl) (by rw [hlt]; decide)

/-- Every element of `_players` is the player of one session, which no element before is. -/
theorem Core.heard (h : Core W v) {before after : List (UInt64 × Ref)} {k : UInt64}
    (hlist : v.game.players.toList = before ++ (k, r) :: after) :
    ∃ (o : GameObject) (s₀ : SessionId), v.game.objects[r]? = some o ∧ o.kind = .player (some s₀) ∧
      ¬ v.game.Heard before s₀ ∧ ∀ s, v.game.Heard (before ++ [(k, r)]) s ↔ v.game.Heard before s ∨ s = s₀ := by
  have hmem : v.game.players[k]? = some r := getElem?_of_toList hlist
  obtain ⟨hkey, o, s₀, ho, hplays, -, hweak, -⟩ := h.players k r hmem
  refine ⟨o, s₀, ho, hplays.kind, ?_, fun s => ?_⟩
  · intro hheard
    obtain ⟨r', hr', hbefore⟩ := hheard
    rw [hweak] at hr'
    obtain rfl := Option.some.inj hr'
    rw [← hkey] at hbefore
    exact not_mem_before hlist hbefore
  constructor
  · intro hheard
    obtain ⟨r', hr', hin⟩ := hheard
    rcases List.mem_append.1 hin with hbefore | hlast
    · exact .inl ⟨r', hr', hbefore⟩
    · right
      -- two sessions of one object
      obtain ⟨-, rfl⟩ := Prod.mk.inj (List.mem_singleton.1 hlast)
      obtain ⟨o', ho', hplays'⟩ := h.weak s r' hr'
      rw [ho] at ho'
      obtain rfl := Option.some.inj ho'
      have hkind := hplays'.kind.symm.trans hplays.kind
      exact Option.some.inj (Kind.player.inj hkind)
  · intro hheard
    rcases hheard with ⟨r', hr', hbefore⟩ | rfl
    · exact ⟨r', hr', List.mem_append_left _ hbefore⟩
    · exact ⟨r, hweak, by rw [hkey]; simp⟩

/-- An object in a map, or that a local variable holds, is alive. -/
theorem Good.useCount (h : Good W st pins) (hr : st.game.Inside r ∨ r ∈ pins) : 0 < st.game.useCount r := by
  have hcount := h.counted r
  rcases hr with (hp | hm) | hpin
  · have := heldIn_pos.2 hp
    omega
  · have := heldIn_pos.2 hm
    omega
  · have := List.count_pos_iff.2 hpin
    omega

theorem Good.deref (h : Good W st pins) (ho : st.game.objects[r]? = some o)
    (hr : st.game.Inside r ∨ r ∈ pins) : st.game.deref r = .ok o := by
  unfold Room.deref
  rw [ho]
  exact if_pos (h.useCount hr)

end

/-- One step of the loop. The elements visited so far have the message. -/
theorem broadcast_step (h : Good Anyone st pins) {packet : Packet} {before after : List (UInt64 × Ref)} {k : UInt64}
    {st₁ : Game Outboxes} (hlist : st.game.players.toList = before ++ (k, r) :: after)
    (hgame : st₁.game = st.game) (hvisited : ToldTo (st.game.toScene.Heard before) packet.msg st.net st₁.net) :
    Returns (do
      let player ← st₁.game.deref r
      match player.kind with
      | .player (some session) => post session packet st₁
      | _ => .error .undefined) fun st' => st'.game.players = st.game.players ∧
        (st'.game = st.game ∧ ToldTo (st.game.toScene.Heard (before ++ [(k, r)])) packet.msg st.net st'.net) := by
  obtain ⟨o, s₀, ho, hkind, hnew, hheard⟩ := h.core.heard hlist
  have hmem : st.game.players[k]? = some r := getElem?_of_toList hlist
  have hin : st.game.Inside r := .inl ((h.core.players k r hmem).1 ▸ hmem)
  rw [hgame, h.deref ho (.inl hin), ok_bind, hkind]
  unfold post
  refine .ok ⟨by rw [← hgame], hgame, fun s => ?_⟩
  have hheard : st.game.toScene.Heard (before ++ [(k, r)]) s ↔ st.game.toScene.Heard before s ∨ s = s₀ := hheard s
  rw [hheard]
  by_cases hs : s = s₀
  · rw [hs]
    simp [(hvisited s₀).2 hnew]
  · simpa [hs] using hvisited s

theorem told_start {P : Scene} {msg : Msg} {net : Outboxes} : ToldTo (P.Heard []) msg net net := by
  refine fun s => ⟨fun hheard => ?_, fun _ => rfl⟩
  obtain ⟨r, -, hr⟩ := hheard
  cases hr

theorem told_all {msg : Msg} {net net' : Outboxes} (h : ToldTo (sc.Heard sc.players.toList) msg net net') :
    Told sc msg net net' := by
  intro s
  have hall : sc.Heard sc.players.toList s ↔ sc.Audience s := by
    unfold Scene.Heard Scene.Audience
    simp only [TreeMap.mem_toList_iff_getElem?_eq_some]
  rw [← hall]
  exact h s

/-- **A broadcast of `post`** returns. -/
theorem broadcast_post (h : Good Anyone st pins) (packet : Packet) (hfuel : st.game.players.toList.length < fuel) :
    Returns (Game.broadcast post fuel packet st) fun st' =>
      st'.game = st.game ∧ Told st.game.toScene packet.msg st.net st'.net := by
  unfold Game.broadcast
  refine (Post.rangeFor_total (I := fun before (st' : Game Outboxes) => st'.game = st.game ∧
    ToldTo (st.game.toScene.Heard before) packet.msg st.net st'.net) ?_ hfuel rfl ⟨rfl, told_start⟩).imp fun st' h' => ?_
  · intro before k r after st₁ hlist _ hI
    exact broadcast_step h hlist hI.1 hI.2
  · exact ⟨h'.2.1, told_all h'.2.2⟩

theorem speaks_post : Speaks post Anyone Told := by
  refine ⟨fun fuel packet st pins h => ?_, fun _ _ _ _ _ _ _ => trivial⟩
  unfold Game.broadcast
  refine (Post.rangeFor (I := fun before (st' : Game Outboxes) => st'.game = st.game ∧
    ToldTo (st.game.toScene.Heard before) packet.msg st.net st'.net) ⟨trivial, trivial⟩ ?_ rfl
    ⟨rfl, told_start⟩).imp fun st' h' => ?_
  · intro before k r after st₁ hlist _ hI
    exact (broadcast_step h hlist hI.1 hI.2).ifReturns.imp fun st' h' _ => h'
  · exact ⟨h'.2.1, told_all h'.2.2⟩

theorem tells_post (session : SessionId) : Tells post Anyone Whisper (fun _ _ => True) session := by
  refine ⟨fun i packet st pins _ _ => ?_, fun _ _ => trivial⟩
  exact .ok ⟨rfl, rfl, fun _ _ => trivial, trivial⟩

/-- The objects of the room are under their own keys. -/
theorem Core.contains (h : Core Anyone st.stage) : st.game.Contains r ↔ st.game.Inside r := by
  constructor
  · intro hin
    obtain ⟨id, hp | hm⟩ := hin
    · exact .inl ((h.players id r hp).1 ▸ hp)
    · exact .inr ((h.monsters id r hm).1 ▸ hm)
  · intro hin
    exact ⟨key r, hin⟩

/-! ## Operations -/

/-- What an operation performs. -/
def RoomOp.Performs (sc : Scene) : RoomOp → List Label → Prop
  | .init _, acts => acts = [.spawn]
  | .enterRoom s, acts => acts = [.enter s]
  | .leaveRoom _, acts => acts = [] ∨ ∃ id, acts = [.leave id]
  | .handleCMove pkt, acts => acts = [] ∨ ∃ r rest, sc.findObject pkt.info.objectid = some r ∧
      acts = .report r pkt.info :: rest ∧ ∀ a ∈ rest, Label.Attacks r a
  | .update _ _, acts => ∀ a ∈ acts, ∃ r, Label.Lives r a

/-- **An operation is a run of acts.** -/
theorem roomStep_acts {op : RoomOp} (h : Good Anyone st []) (hstep : RoomStep st op st') :
    Good Anyone st' [] ∧ ∃ acts, Runs (Act Told Whisper) st.stage acts st'.stage ∧
      op.Performs st.game.toScene acts := by
  obtain ⟨hfresh, fuel, hrun⟩ := hstep
  cases op with
  | init tilemap =>
    obtain ⟨hgood, hact⟩ := (init_spec (U := Whisper) speaks_post h tilemap).result hrun
    exact ⟨hgood, [.spawn], .single hact, rfl⟩
  | enterRoom s =>
    obtain ⟨hgood, hact⟩ := (enterRoom_spec speaks_post (tells_post s) h trivial hfresh).result hrun
    exact ⟨hgood, [.enter s], .single hact, rfl⟩
  | leaveRoom s =>
    obtain ⟨hgood, hleave⟩ := (leaveRoom_spec speaks_post h).result hrun
    refine ⟨hgood, ?_⟩
    rcases hleave with rfl | ⟨id, hremoves⟩
    · exact ⟨[], .nil, .inl rfl⟩
    · exact ⟨[.leave id], .single (.leave hremoves), .inr ⟨id, rfl⟩⟩
  | handleCMove pkt =>
    obtain ⟨hgood, hmove⟩ := (handleCMove_spec (U := Whisper) speaks_post h pkt).result hrun
    refine ⟨hgood, ?_⟩
    rcases hmove with ⟨-, rfl⟩ | ⟨r, v, hfound, hreport, hswings⟩
    · exact ⟨[], .nil, .inl rfl⟩
    · obtain ⟨acts, hruns, hmay⟩ := hswings.does
      exact ⟨_, .cons hreport hruns, .inr ⟨r, acts, hfound, rfl, hmay⟩⟩
  | update ticks pick =>
    have h₁ : Good Anyone (st.update fun room => { room with ticks := ticks }) [] :=
      ⟨h.core, h.counted.of_same rfl rfl rfl⟩
    obtain ⟨hgood, acts, hruns, hmay⟩ := (updateRoom_spec (U := Whisper) speaks_post h₁).result hrun
    exact ⟨hgood, acts, hruns, hmay⟩

end ZeldaServer
