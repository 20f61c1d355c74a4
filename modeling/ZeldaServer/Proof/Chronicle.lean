import ZeldaServer.Proof.Turns

/-!
# Notes about a run

A run in which something is noted of every turn of a monster and of every other operation:
`NotedStep` carries a value along that `note` changes. The packets name players only, so
that a monster changes in its own turns only, but for its hp and its pointer to the room.

* `noted_exists`: every step can be noted.
* `op_pose`, `MonsterTurn.spares`: what does not change a monster.
-/

namespace ZeldaServer

open Lib Std

variable {st st' : Game Outboxes} {m r : Ref} {o : GameObject} {fields : Monster} {pick : Pick} {sc : Scene} {op : RoomOp}
  {v v' : Stage Outboxes} {γ : Type}

/-- An operation; a packet that names an object names a player. -/
abbrev PlayersStep : Game Outboxes → RoomOp → Game Outboxes → Prop :=
  ReportStep fun _ info _ => info.objecttype = .player

/-- The clock of an update. -/
def clocked (ticks : List UInt64) (st : Game Outboxes) : Game Outboxes := st.update fun room => { room with ticks := ticks }

theorem Good.clocked (h : Good Anyone st []) (ticks : List UInt64) : Good Anyone (clocked ticks st) [] :=
  ⟨h.core, h.counted.of_same rfl rfl rfl⟩

section

/-! `note` is given the monster whose turn it was, if it was one, and the states before and after. -/

variable (note : Option Ref → Game Outboxes → Game Outboxes → γ → γ)

/-- The turn of the monster `m`, which is noted. -/
def NotedTurn (pick : Pick) (s : Game Outboxes × γ) (m : Ref) (s' : Game Outboxes × γ) : Prop :=
  TurnStep pick s.1 m s'.1 ∧ s'.2 = note (some m) s.1 s'.1 s.2

/-- An operation, which is noted: an update turn by turn. -/
def NotedStep (s : Game Outboxes × γ) (op : RoomOp) (s' : Game Outboxes × γ) : Prop :=
  PlayersStep s.1 op s'.1 ∧
    match op with
    | .update ticks pick => Runs (NotedTurn note pick) (clocked ticks s.1, s.2) (elements s.1.game.monsters) s'
    | _ => s'.2 = note none s.1 s'.1 s.2

theorem noted_turns {ms : List Ref} (h : Runs (TurnStep pick) st ms st') (g : γ) :
    ∃ g', Runs (NotedTurn note pick) (st, g) ms (st', g') := by
  induction h with
  | nil => exact ⟨g, .nil⟩
  | @snoc _ st₁ m st₂ _ hturn ih =>
    obtain ⟨g', hruns⟩ := ih
    exact ⟨note (some m) st₁ st₂ g', hruns.snoc ⟨hturn, rfl⟩⟩

/-- **Every step can be noted.** -/
theorem noted_exists (h : Good Anyone st []) (hstep : PlayersStep st op st') (g : γ) :
    ∃ g', NotedStep note (st, g) op (st', g') := by
  cases op with
  | update ticks pick =>
    obtain ⟨-, fuel, hrun⟩ := hstep.1
    obtain ⟨-, -, hturns⟩ := (updateRoom_turns (h.clocked ticks)).result hrun
    obtain ⟨g', hnoted⟩ := noted_turns note hturns g
    exact ⟨g', hstep, hnoted⟩
  | init _ => exact ⟨note none st st' g, hstep, rfl⟩
  | enterRoom _ => exact ⟨note none st st' g, hstep, rfl⟩
  | leaveRoom _ => exact ⟨note none st st' g, hstep, rfl⟩
  | handleCMove _ => exact ⟨note none st st' g, hstep, rfl⟩

end

/-! ## What does not change a monster -/

/-- The class of an object with its own fields, its state and its cell. -/
def GameObject.pose (o : GameObject) : Kind × ObjectState × VectorInt := (o.kind, o.info.state, o.getCellPos)

/-- The object `m` keeps its pose. -/
def KeepsPose (m : Ref) (sc sc' : Scene) : Prop :=
  ∀ o : GameObject, sc.objects[m]? = some o → ∃ o' : GameObject, sc'.objects[m]? = some o' ∧ o'.pose = o.pose

theorem KeepsPose.refl : KeepsPose m sc sc := fun o ho => ⟨o, ho, rfl⟩

theorem KeepsPose.trans {sc' sc'' : Scene} (h : KeepsPose m sc sc') (h' : KeepsPose m sc' sc'') : KeepsPose m sc sc'' := by
  intro o ho
  obtain ⟨o', ho', hpose⟩ := h o ho
  obtain ⟨o'', ho'', hpose'⟩ := h' o' ho'
  exact ⟨o'', ho'', hpose'.trans hpose⟩

theorem KeepsPose.modify {f : GameObject → GameObject} (hf : ∀ o, (f o).pose = o.pose) : KeepsPose m sc (sc.modify r f) := by
  intro o ho
  by_cases hr : m = r
  · subst hr
    exact ⟨f o, modify_self ho, hf o⟩
  · exact ⟨o, (modify_ne hr).trans ho, rfl⟩

theorem KeepsPose.modify_other {f : GameObject → GameObject} (hne : m ≠ r) : KeepsPose m sc (sc.modify r f) :=
  fun o ho => ⟨o, (modify_ne hne).trans ho, rfl⟩

theorem KeepsPose.drop {which : Roster} {k : UInt64} : KeepsPose m sc (sc.drop which r k) := by
  unfold Scene.drop
  refine .trans ?_ (.modify fun _ => rfl)
  cases which with
  | players => exact .refl
  | monsters => exact .refl

theorem KeepsPose.append {o : GameObject} {sc' : Scene} (h : sc'.objects = sc.objects ++ [o]) : KeepsPose m sc sc' := by
  intro o' ho'
  refine ⟨o', ?_, rfl⟩
  rw [h, List.getElem?_append_left (List.getElem?_eq_some_iff.1 ho').1]
  exact ho'

theorem Removes.keeps {id : UInt64} (h : Removes Told v id v') : KeepsPose m v.game v'.game := by
  cases h with
  | missing => exact .refl
  | found => exact .drop

theorem Strikes.keeps {target : Ref} {info : ObjectInfo} (h : Strikes Told v r target info v') : KeepsPose m v.game v'.game := by
  cases h with
  | mk => exact .modify fun _ => rfl

/-- The acts of others. -/
def Label.Passes (m : Ref) (a : Label) : Prop :=
  match a with
  | .think r | .walk r _ | .report r _ | .kill r _ => r ≠ m
  | _ => True

theorem Act.keeps {a : Label} (hact : Act Told Whisper v a v') (ha : a.Passes m) : KeepsPose m v.game v'.game := by
  cases hact with
  | enter => exact .append rfl
  | spawn => exact .append rfl
  | think => exact .modify_other (Ne.symm ha)
  | walk => exact .modify_other (Ne.symm ha)
  | report => exact .modify_other (Ne.symm ha)
  | hit hs => exact hs.keeps
  | kill hs _ _ hr => exact (hs.keeps.trans (.modify_other (Ne.symm ha))).trans hr.keeps
  | leave hr => exact hr.keeps

theorem acts_keep {acts : List Label} (h : Runs (Act Told Whisper) v acts v') (hacts : ∀ a ∈ acts, a.Passes m) :
    KeepsPose m v.game v'.game := by
  induction h with
  | nil => exact .refl
  | snoc _ hact ih =>
    have hbefore := ih fun a ha => hacts a (List.mem_append_left _ ha)
    exact hbefore.trans (hact.keeps (hacts _ (List.mem_append_right _ List.mem_cons_self)))

/-- What no act of others makes is idle. -/
theorem Act.fresh {a : Label} (hact : Act Told Whisper v a v') (hnone : v.game.objects[m]? = none) (ho : v'.game.objects[m]? = some o) :
    o.info.state = .idle := by
  have hsame : v'.game.objects.length ≠ v.game.objects.length := by
    intro hlength
    rw [List.getElem?_eq_none_iff, ← hlength] at hnone
    rw [List.getElem?_eq_none hnone] at ho
    exact (Option.some_ne_none o).symm ho
  have hadded : ∀ {added : GameObject}, v'.game.objects = v.game.objects ++ [added] → o = added := by
    intro added heq
    rw [heq, List.getElem?_append_right (List.getElem?_eq_none_iff.1 hnone)] at ho
    exact List.mem_singleton.1 (List.mem_of_getElem? ho)
  cases hact with
  | enter =>
    rw [hadded rfl]
    rfl
  | spawn =>
    rw [hadded rfl]
    rfl
  | think => exact absurd (modify_length _ _) hsame
  | walk => exact absurd (modify_length _ _) hsame
  | report => exact absurd (modify_length _ _) hsame
  | hit hs => exact absurd hs.length hsame
  | kill hs _ _ hr => exact absurd (hr.length.trans ((modify_length _ _).trans hs.length)) hsame
  | leave hr => exact absurd hr.length hsame

theorem acts_fresh {acts : List Label} (h : Runs (Act Told Whisper) v acts v') (hacts : ∀ a ∈ acts, a.Passes m)
    (hnone : v.game.objects[m]? = none) (ho : v'.game.objects[m]? = some o) : o.info.state = .idle := by
  induction h generalizing o with
  | nil => exact absurd (hnone.symm.trans ho) (Option.some_ne_none o).symm
  | @snoc acts v₁ a v₂ _ hact ih =>
    cases ho₁ : v₁.game.objects[m]? with
    | none => exact hact.fresh ho₁ ho
    | some o₁ =>
      have hidle := ih (fun a ha => hacts a (List.mem_append_left _ ha)) ho₁
      obtain ⟨o', ho', hpose⟩ := hact.keeps (hacts a (List.mem_append_right _ List.mem_cons_self)) o₁ ho₁
      obtain rfl : o = o' := Option.some.inj (ho.symm.trans ho')
      exact (Prod.mk.inj (Prod.mk.inj hpose).2).1.trans hidle

theorem Removes.recruits {id k : UInt64} (h : Removes Told v id v') (hk : v'.game.monsters[k]? = some m) :
    v.game.monsters[k]? = some m := by
  cases h with
  | missing => exact hk
  | @found _ _ which _ _ _ _ _ =>
    cases which with
    | players => exact hk
    | monsters =>
      have herased : (v.game.monsters.erase id)[k]? = some m := hk
      rw [TreeMap.getElem?_erase] at herased
      split at herased
      · cases herased
      · exact herased

theorem Strikes.recruits {target : Ref} {info : ObjectInfo} (h : Strikes Told v r target info v') : v'.game.monsters = v.game.monsters := by
  cases h with
  | mk => exact modify_monsters _ _

/-- A monster that comes into the room is a new object. -/
theorem Act.recruits {a : Label} {k : UInt64} (hact : Act Told Whisper v a v') (hk : v'.game.monsters[k]? = some m) :
    v.game.monsters[k]? = some m ∨ v.game.objects[m]? = none := by
  cases hact with
  | enter => exact .inl hk
  | spawn =>
    have hinsert : (v.game.monsters.insert v.game.idGenerator v.game.objects.length)[k]? = some m := hk
    rw [TreeMap.getElem?_insert] at hinsert
    split at hinsert
    · right
      rw [← Option.some.inj hinsert]
      exact List.getElem?_eq_none (Nat.le_refl _)
    · exact .inl hinsert
  | think => exact .inl hk
  | walk => exact .inl hk
  | report => exact .inl hk
  | hit hs =>
    rw [hs.recruits] at hk
    exact .inl hk
  | kill hs _ _ hr =>
    have hmid : (_ : Scene).monsters[k]? = some m := hr.recruits hk
    left
    rw [← hs.recruits]
    exact hmid
  | leave hr => exact .inl (hr.recruits hk)

theorem acts_recruit {acts : List Label} {k : UInt64} (h : Runs (Act Told Whisper) v acts v') (hk : v'.game.monsters[k]? = some m) :
    v.game.monsters[k]? = some m ∨ v.game.objects[m]? = none := by
  induction h with
  | nil => exact .inl hk
  | @snoc acts v₁ a v₂ hbefore hact ih =>
    rcases hact.recruits hk with hmem | hnone
    · exact ih hmem
    · -- the memory only grows
      right
      have hlength := acts_length hbefore
      rw [List.getElem?_eq_none_iff] at hnone ⊢
      omega

/-- An operation that is no update consists of acts of others than the monster `m`. -/
theorem op_acts (h : Good Anyone st []) (hstep : PlayersStep st op st') (hop : ∀ ticks pick, op ≠ .update ticks pick)
    (hm : ∀ o : GameObject, st.game.objects[m]? = some o → ∃ fields, o.kind = .monster fields) :
    ∃ acts, Runs (Act Told Whisper) (Game.stage st) acts (Game.stage st') ∧ ∀ a ∈ acts, a.Passes m := by
  obtain ⟨-, acts, hacts, hperforms⟩ := roomStep_acts h hstep.1
  refine ⟨acts, hacts, ?_⟩
  cases op with
  | init _ =>
    obtain rfl : acts = [.spawn] := hperforms
    simp [Label.Passes]
  | enterRoom s =>
    obtain rfl : acts = [.enter s] := hperforms
    simp [Label.Passes]
  | leaveRoom _ =>
    rcases hperforms with rfl | ⟨id, rfl⟩
    · exact List.forall_mem_nil _
    · simp [Label.Passes]
  | handleCMove pkt =>
    rcases hperforms with rfl | ⟨r, rest, hfound, rfl, hrest⟩
    · exact List.forall_mem_nil _
    -- the packet names a player, and `m` is none
    have hne : r ≠ m := by
      rintro rfl
      obtain ⟨o, ho, -⟩ := h.core.inside_room (h.core.found_inside hfound)
      obtain ⟨fields, hk⟩ := hm o ho
      have htype := hstep.2 pkt r o rfl hfound ho
      have htyped := h.core.typed r o ho
      unfold GameObject.Typed at htyped
      rw [hk] at htyped
      dsimp only at htyped htype
      rw [htyped] at htype
      exact absurd htype (by decide)
    intro a ha
    rcases List.mem_cons.1 ha with rfl | ha
    · exact hne
    · obtain ⟨target, rfl | rfl⟩ := hrest a ha
      · exact trivial
      · exact hne
  | update ticks pick => exact absurd rfl (hop ticks pick)

/-- **An operation that is no update** leaves a monster in its pose. -/
theorem op_pose (h : Good Anyone st []) (hstep : PlayersStep st op st') (hop : ∀ ticks pick, op ≠ .update ticks pick)
    (ho : st.game.objects[m]? = some o) (hk : o.kind = .monster fields) : KeepsPose m st.game.toScene st'.game.toScene := by
  obtain ⟨acts, hacts, hpasses⟩ := op_acts (m := m) h hstep hop fun o' ho' => by
    obtain rfl : o = o' := Option.some.inj (ho.symm.trans ho')
    exact ⟨fields, hk⟩
  exact acts_keep hacts hpasses

/-- A monster that it makes is idle. -/
theorem op_fresh (h : Good Anyone st []) (hstep : PlayersStep st op st') (hop : ∀ ticks pick, op ≠ .update ticks pick)
    (hnone : st.game.objects[m]? = none) (ho : st'.game.objects[m]? = some o) : o.info.state = .idle := by
  obtain ⟨acts, hacts, hpasses⟩ := op_acts (m := m) h hstep hop fun o' ho' =>
    absurd (hnone.symm.trans ho') (Option.some_ne_none o').symm
  exact acts_fresh hacts hpasses hnone ho

/-- **The turn of a monster** leaves the other monsters as they are. -/
theorem MonsterTurn.spares {x : Ref} {p : GameObject} {mine : Monster} (h : Good Anyone st []) (hm : Monstrous st m o fields)
    (hturn : MonsterTurn m o fields st st') (hx : x ≠ m) (hp : st.game.objects[x]? = some p) (hk : p.kind = .monster mine) :
    st'.game.objects[x]? = some p := by
  have hplayer : ∀ {t : Ref}, st.game.lock fields.target = some t → x ≠ t := by
    rintro t hlock rfl
    obtain ⟨-, -, q, hq, htype⟩ := hm.prey h hlock
    obtain rfl : p = q := Option.some.inj (hp.symm.trans hq)
    have htyped := h.core.typed x p hp
    unfold GameObject.Typed at htyped
    rw [hk] at htyped
    dsimp only at htyped
    rw [htyped] at htype
    exact absurd htype (by decide)
  exact (hturn.others hx fun t _ hlock => hplayer hlock).trans hp

/-! ## Runs that can be computed -/

/-- The packet names a player, if it names an object. -/
def RoomOp.namesPlayer (st : Game Outboxes) : RoomOp → Bool
  | .handleCMove pkt => ((st.game.findObject pkt.info.objectid).bind fun r => st.game.objects[r]?).all (·.info.objecttype = .player)
  | _ => true

/-- One operation, whose packet names a player. -/
def playersExec (st : Game Outboxes) (op : RoomOp) : Option (Game Outboxes) :=
  if op.namesPlayer st then roomExec st op else none

theorem playersExec_step (h : playersExec st op = some st') : PlayersStep st op st' := by
  unfold playersExec at h
  split at h
  · rename_i hnames
    refine ⟨roomExec_step h, ?_⟩
    intro pkt r o hop hfound ho
    rw [hop] at hnames
    unfold RoomOp.namesPlayer at hnames
    dsimp only at hnames
    rw [hfound, Option.bind_some, ho, Option.all_some] at hnames
    exact of_decide_eq_true hnames
  · cases h

theorem playersExec_runs {ops : List RoomOp} (h : ops.foldlM playersExec st = some st') : Runs PlayersStep st ops st' :=
  (Runs.ofFold playersExec st ops h).mono fun _ _ _ => playersExec_step

/-- One operation, with a note; an update is one of a room with the monster `m` only. -/
def notedExec (note : Option Ref → Game Outboxes → Game Outboxes → γ → γ) (m : Ref) (s : Game Outboxes × γ) (op : RoomOp) :
    Option (Game Outboxes × γ) :=
  match op with
  | .update ticks _ =>
    if elements s.1.game.monsters = [m] then
      (playersExec s.1 op).map fun st' => (st', note (some m) (clocked ticks s.1) st' s.2)
    else none
  | _ => (playersExec s.1 op).map fun st' => (st', note none s.1 st' s.2)

theorem notedExec_step {note : Option Ref → Game Outboxes → Game Outboxes → γ → γ} {s s' : Game Outboxes × γ}
    (hgood : Good Anyone s.1 []) (h : notedExec note m s op = some s') : NotedStep note s op s' := by
  have hother : ∀ {op : RoomOp}, (playersExec s.1 op).map (fun st' => (st', note none s.1 st' s.2)) = some s' →
      PlayersStep s.1 op s'.1 ∧ s'.2 = note none s.1 s'.1 s.2 := by
    intro op h
    obtain ⟨st', hst', rfl⟩ := Option.map_eq_some_iff.1 h
    exact ⟨playersExec_step hst', rfl⟩
  cases op with
  | update ticks pick =>
    unfold notedExec at h
    dsimp only at h
    split at h
    · rename_i hone
      obtain ⟨st', hst', rfl⟩ := Option.map_eq_some_iff.1 h
      have hstep := playersExec_step hst'
      obtain ⟨-, fuel, hrun⟩ := hstep.1
      obtain ⟨-, -, hturns⟩ := (updateRoom_turns (hgood.clocked ticks)).result hrun
      rw [show elements (clocked ticks s.1).game.monsters = [m] from hone] at hturns
      refine ⟨hstep, ?_⟩
      dsimp only
      rw [hone]
      exact .single ⟨hturns.of_single, rfl⟩
    · cases h
  | init _ => exact hother h
  | enterRoom _ => exact hother h
  | leaveRoom _ => exact hother h
  | handleCMove _ => exact hother h

/-- An update is one of a room with the monster `m` only. -/
theorem notedExec_alone {note : Option Ref → Game Outboxes → Game Outboxes → γ → γ}
    {s s' : Game Outboxes × γ} {ticks : List UInt64}
    (h : notedExec note m s (.update ticks pick) = some s') : elements s.1.game.monsters = [m] := by
  unfold notedExec at h
  dsimp only at h
  split at h
  · assumption
  · cases h

theorem notedExec_runs {note : Option Ref → Game Outboxes → Game Outboxes → γ → γ}
    {s s' : Game Outboxes × γ} {ops : List RoomOp}
    (hgood : Good Anyone s.1 []) (h : ops.foldlM (notedExec note m) s = some s') :
    Runs (NotedStep note) s ops s' ∧ Good Anyone s'.1 [] := by
  have hruns := Runs.ofFold (notedExec note m) s ops h
  clear h
  induction hruns with
  | nil => exact ⟨.nil, hgood⟩
  | snoc _ hstep ih =>
    obtain ⟨hruns, hgood₁⟩ := ih
    have hnoted := notedExec_step hgood₁ hstep
    exact ⟨hruns.snoc hnoted, (roomStep_acts hgood₁ hnoted.1.1).1⟩

end ZeldaServer
