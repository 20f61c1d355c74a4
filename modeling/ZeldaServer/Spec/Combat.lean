import ZeldaServer.Spec.Outbox

/-!
# Attacks, as the clients see them

The two records of an `S_Attack`, and what a list of attacks does to one object.
-/

namespace ZeldaServer

/-- The records of an `S_Attack`. -/
structure Blow where
  target : ObjectInfo
  attacker : ObjectInfo
  deriving DecidableEq, Repr

/-- The attacks among the messages. -/
def attacks (msgs : List Msg) : List Blow :=
  msgs.filterMap fun msg => match msg with
    | .attack targetinfo attackerinfo => some ⟨targetinfo, attackerinfo⟩
    | _ => none

/-- The attack leaves no hp to the object `id`. -/
def Blow.Kills (b : Blow) (id : UInt64) : Prop := b.target.objectid = id ∧ b.target.hp ≤ 0

instance (b : Blow) (id : UInt64) : Decidable (b.Kills id) := inferInstanceAs (Decidable (_ ∧ _))

/-- What the attacks take from the object `id`. -/
def damage (id : UInt64) : List Blow → ℤ
  | [] => 0
  | b :: bs => (if b.target.objectid = id then b.attacker.attack.toInt else 0) + damage id bs

/-- Every attack on the object `id`, which has `hp` before, carries the reduced hp. -/
def Carries (id : UInt64) : ℤ → List Blow → Prop
  | _, [] => True
  | hp, b :: bs =>
    if b.target.objectid = id then
      b.target.hp.toInt = hp - b.attacker.attack.toInt ∧ Carries id (hp - b.attacker.attack.toInt) bs
    else Carries id hp bs

/-- The attacks up to the one that kills the object `id`. -/
def heard (id : UInt64) : List Blow → List Blow
  | [] => []
  | b :: bs => if b.Kills id then [b] else b :: heard id bs

/-- The fields of a record that never change. -/
structure ObjectInfo.SameKind (info info' : ObjectInfo) : Prop where
  objectid : info.objectid = info'.objectid
  objecttype : info.objecttype = info'.objecttype
  name : info.name = info'.name
  maxhp : info.maxhp = info'.maxhp
  attack : info.attack = info'.attack
  defence : info.defence = info'.defence

/-- **The attacks of an operation**, in order: what they take from the objects, who makes
them, and which of them the sessions in the room are sent. -/
structure Battle (st : Game Outboxes) (bs : List Blow) (st' : Game Outboxes) : Prop where
  objects : ∀ (r : Ref) (o : GameObject), st.game.objects[r]? = some o → ∃ o' : GameObject,
    st'.game.objects[r]? = some o' ∧ o'.info.SameKind o.info ∧ Carries o.info.objectid o.info.hp.toInt bs ∧
      o'.info.hp.toInt = o.info.hp.toInt - damage o.info.objectid bs
  attackers : ∀ b ∈ bs, ∃ (r : Ref) (a : GameObject), st'.game.objects[r]? = some a ∧
    a.info.objectid = b.attacker.objectid ∧ a.info.attack = b.attacker.attack ∧ 0 < a.info.attack
  told : ∀ (id : UInt64) (r : Ref) (o : GameObject) (s : SessionId), st.game.players[id]? = some r →
    st.game.objects[r]? = some o → o.kind = .player (some s) →
    attacks (st'.net s) = attacks (st.net s) ++ heard o.info.objectid bs

/-- The attacks remove whom they kill, and nobody else leaves the room. -/
def Removed (room : Room) (bs : List Blow) (room' : Room) : Prop :=
  ∀ (r : Ref) (o : GameObject), room.objects[r]? = some o →
    (room'.Contains r ↔ room.Contains r ∧ ∀ b ∈ bs, ¬ b.Kills o.info.objectid)

end ZeldaServer
