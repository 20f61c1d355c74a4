import ZeldaServer.Proof.Merge
import ZeldaServer.Proof.Ownership

/-!
# Round trips of the messages

* `CMove.parse_flatMap`: the bytes of several `C_Move`, one after the other, are parsed as
  all of them merged.
* `Msg.parse_serialize`: what the server serializes, a client parses as the same message.
-/

namespace ZeldaServer

open Lib ParseContext

/-! ## Records in messages -/

section Records

variable {μ : Type} {switch : Switch μ} {num : ℕ} {source : ObjectInfo}

theorem bytesField_eq (num : ℕ) (hnum : FieldNumber num) {bs : List UInt8} (hlen : bs.length ≤ maxSize) :
    bytesField num bs = toBase128 (8 * num + 2) ++ (toBase128 bs.length ++ bs) := by
  have hmax : bs.length ≤ 2147483631 := hlen
  rw [bytesField_base128 hnum.2 (by omega), List.append_assoc]

/-- A field that is a record. -/
theorem reads_record (num : ℕ) {msg : μ} (hsource : source.WellFormed) (hsize : source.serialize.length ≤ maxSize) (hnum : FieldNumber num)
    (info : ObjectInfo) (set : ObjectInfo → μ)
    (hswitch : ∀ ctx ptr, switch msg ctx ptr (UInt32.ofNat (8 * num + 2)) =
      some (set (info.parseMessage ctx ptr).1, (info.parseMessage ctx ptr).2)) :
    Reads switch 100 (bytesField num source.serialize) msg (set (info.mergeFrom source)) := by
  have hlt := hnum.2
  rw [bytesField_eq num hnum hsize]
  refine Reads.field (by omega) fun ctx ptr hready hdepth hheld hlimit => ?_
  obtain ⟨ctx', halong, heq⟩ := parseMessage_held hsource hsize info hready hdepth hheld hlimit
  exact ⟨ctx', halong, by rw [hswitch, heq]⟩

theorem length_le_bytesField (num : ℕ) (bs : List UInt8) : bs.length ≤ (bytesField num bs).length := by
  rw [bytesField, List.length_append]
  exact Nat.le_add_left _ _

end Records

/-! ## `C_Move` -/

namespace CMove

/-- The `switch` of `C_Move::_InternalParse` -/
def switch : Switch CMove := fun pkt ctx ptr tag =>
  if tag = 10 then
    let (info, res) := pkt.info.parseMessage ctx ptr
    some ({ pkt with info? := some info }, res)
  else if ends tag then none
  else
    let (fields, res) := ctx.unknownFieldParse ptr tag
    some ({ pkt with unknownFields := pkt.unknownFields ++ fields }, res)

theorem parseMessage_eq (pkt : CMove) (ctx : ParseContext) (ptr : ℕ) :
    pkt.parseMessage ctx ptr =
      ({ pkt with info? := some (pkt.info.parseMessage ctx ptr).1 }, (pkt.info.parseMessage ctx ptr).2) := by
  rw [CMove.parseMessage, ObjectInfo.parseMessage]
  rcases ctx.readSize ptr with _ | ⟨ptr, size⟩
  · rfl
  by_cases hdepth : ctx.depth = 0
  · simp only [if_pos hdepth]
  · simp only [if_neg hdepth]
    rcases ObjectInfo.internalParse ctx.rounds pkt.info { ctx with limit := ptr + size, depth := ctx.depth - 1 } ptr with
      ⟨info, _ | ⟨ptr', ctx'⟩⟩
    · rfl
    · rfl

theorem internalParse_eq (fuel : ℕ) (pkt : CMove) (ctx : ParseContext) (ptr : ℕ) :
    pkt.internalParse fuel ctx ptr = messageLoop CMove.switch fuel pkt ctx ptr := by
  induction fuel generalizing pkt ctx ptr with
  | zero => rfl
  | succ fuel ih =>
    rw [CMove.internalParse, messageLoop]
    rcases ctx.done ptr with _ | ⟨_ | _, ctx⟩
    · rfl
    · rcases htag : ctx.readTag ptr with _ | ⟨ptr, tag⟩
      · simp only [htag]
      by_cases hten : tag = 10
      · simp only [htag, CMove.switch, if_pos hten, parseMessage_eq]
        rcases pkt.info.parseMessage ctx ptr with ⟨info, _ | ⟨ptr', ctx'⟩⟩
        · rfl
        · exact ih _ ctx' ptr'
      by_cases hends : ends tag = true
      · simp only [htag, CMove.switch, if_neg hten, if_pos hends]
      · simp only [htag, CMove.switch, if_neg hten, if_neg hends]
        rcases ctx.unknownFieldParse ptr tag with ⟨fields, _ | ⟨ptr', ctx'⟩⟩
        · rfl
        · exact ih _ ctx' ptr'
    · rfl

theorem parseFromArray_eq (data : List UInt8) : CMove.parseFromArray data = ZeldaServer.parseFromArray CMove.switch {} data := by
  have hloop : CMove.internalParse = messageLoop CMove.switch := by
    funext fuel pkt ctx ptr
    exact internalParse_eq fuel pkt ctx ptr
  rewrite [CMove.parseFromArray, hloop]
  rfl

/-- A `C_Move` that can be sent: its record can be in a message, and its unknown fields are fields
of the wire format. -/
structure WellFormed (pkt : CMove) : Prop where
  info : ∀ info ∈ pkt.info?, info.WellFormed ∧ info.serialize.length ≤ maxSize
  unknownFields : Fields maxSize 100 (fun tag => tag ≠ 10) pkt.unknownFields

/-- Unknown fields go to the unknown fields. -/
theorem reads_unknown {bs : List UInt8} (h : Fields maxSize 100 (fun tag => tag ≠ 10) bs) (pkt : CMove) :
    Reads CMove.switch 100 bs pkt { pkt with unknownFields := pkt.unknownFields ++ bs } := by
  refine reads_fields (fun pkt fields => { pkt with unknownFields := pkt.unknownFields ++ fields }) (fun pkt => ?_)
    (fun pkt bs bs' => ?_) (fun pkt ctx ptr tag hten htag hends => ?_) h pkt
  · simp only [List.append_nil]
  · simp only [List.append_assoc]
  · have hne : UInt32.ofNat tag ≠ 10 := by
      rw [Ne, ofNat_eq_iff htag]
      exact hten
    rw [CMove.switch, if_neg hne, if_neg hends]

theorem reads_serialize {source : CMove} (h : source.WellFormed) (pkt : CMove) :
    Reads CMove.switch 100 source.serialize pkt (pkt.mergeFrom source) := by
  have hunknown := reads_unknown h.unknownFields
  rcases source with ⟨_ | info, unknown⟩
  · exact hunknown pkt
  · obtain ⟨hinfo, hsize⟩ := h.info info rfl
    have hswitch (ctx : ParseContext) (ptr : ℕ) : CMove.switch pkt ctx ptr 10 =
        some ({ pkt with info? := some (pkt.info.parseMessage ctx ptr).1 }, (pkt.info.parseMessage ctx ptr).2) := rfl
    exact (reads_record 1 hinfo hsize (by decide) pkt.info (fun info => { pkt with info? := some info }) hswitch).append (hunknown _)

theorem reads_all {pkts : List CMove} (h : ∀ pkt ∈ pkts, pkt.WellFormed) (pkt : CMove) :
    Reads CMove.switch 100 (pkts.flatMap CMove.serialize) pkt (pkts.foldl CMove.mergeFrom pkt) := by
  induction pkts generalizing pkt with
  | nil => exact .nil
  | cons source pkts ih =>
    rw [List.flatMap_cons]
    exact (reads_serialize (h source (.head _)) pkt).append (ih (fun pkt hpkt => h pkt (.tail _ hpkt)) _)

/-- **The bytes of several messages, one after the other, are parsed as all of them merged.** They
are fewer than `ParseFromArray` can be given. -/
theorem parse_flatMap (pkts : List CMove) (h : ∀ pkt ∈ pkts, pkt.WellFormed) (_ : (pkts.flatMap CMove.serialize).length < 2 ^ 31) :
    CMove.parseFromArray (pkts.flatMap CMove.serialize) = (true, pkts.foldl CMove.mergeFrom {}) := by
  rw [parseFromArray_eq]
  exact (reads_all h {}).parse

/-- The second message moves what the first one names, and each has a field that nobody knows. -/
theorem parse_flatMap_two :
    CMove.parseFromArray ([CMove.mk (some { objectid := 2, name := [0x41], posx := 3 }) [0x10, 5],
      CMove.mk (some { posx := 4 }) [0x23, 0x24]].flatMap CMove.serialize) =
        (true, CMove.mk (some { objectid := 2, name := [0x41], posx := 4 }) [0x10, 5, 0x23, 0x24]) := by
  have hvarint : Fields maxSize 100 (fun tag => tag ≠ 10) (toBase128 (8 * 2) ++ toBase128 5) :=
    .single (by decide) (.varint (by decide) (by decide))
  have hgroup : Fields maxSize 100 (fun tag => tag ≠ 10) (toBase128 (8 * 4 + 3) ++ ([] ++ toBase128 (8 * 4 + 4))) :=
    .single (by decide) (.group (by decide) .nil)
  rw [toBase128_small (by decide), toBase128_small (by decide)] at hvarint hgroup
  refine parse_flatMap _ ?_ (by decide)
  rintro pkt (_ | ⟨_, _ | ⟨_, ⟨⟩⟩⟩)
  · exact ⟨by rintro info ⟨⟩; exact ⟨⟨rfl, rfl, rfl, by decide, by decide, .nil⟩, by decide⟩, hvarint⟩
  · exact ⟨by rintro info ⟨⟩; exact ⟨⟨rfl, rfl, rfl, by decide, by decide, .nil⟩, by decide⟩, hgroup⟩

/-- Merged into a new message, a message is itself. -/
theorem WellFormed.mergeFrom_new {pkt : CMove} (h : pkt.WellFormed) : CMove.mergeFrom {} pkt = pkt := by
  rcases pkt with ⟨_ | info, unknown⟩
  · rfl
  · exact congrArg (fun info => CMove.mk (some info) unknown) (h.info info rfl).1.mergeFrom_new

/-- A message is parsed from its bytes. -/
theorem WellFormed.parse {pkt : CMove} (h : pkt.WellFormed) : CMove.parseFromArray pkt.serialize = (true, pkt) := by
  have hreads := reads_serialize h {}
  rw [h.mergeFrom_new] at hreads
  rw [parseFromArray_eq]
  exact hreads.parse

end CMove

/-! ## The messages of the server -/

/-- A message that can be sent. -/
def Msg.WellFormed : Msg → Prop
  | .enterGame _ _ => True
  | .myPlayer info => info.WellFormed
  | .addObject objects => ∀ info ∈ objects, info.WellFormed
  | .removeObject _ => True
  | .move info => info.WellFormed
  | .attack targetinfo attackerinfo => targetinfo.WellFormed ∧ attackerinfo.WellFormed

/-! ### `S_EnterGame` -/

theorem SEnterGame.reads (success : Bool) (accountid : UInt64) :
    Reads SEnterGame.switch 100 (Msg.enterGame success accountid).serialize {} { success := success, accountid := accountid } := by
  have hsuccess : Reads SEnterGame.switch 100 (uint64Field 1 (if success then 1 else 0)) {} { success := success } := by
    cases success with
    | false => exact .nil
    | true =>
      have hbytes : uint64Field 1 (if true = true then 1 else 0) = toBase128 8 ++ toBase128 1 := by
        rw [if_pos rfl, uint64Field, if_neg (by decide), varint_ofNat (by decide), varint_base128]
        rfl
      rw [hbytes]
      refine Reads.field (by decide) fun ctx ptr hready _ hheld _ => ⟨ctx, hready.along, ?_⟩
      rw [SEnterGame.switch, if_pos (by decide), readVarint_held (by decide) hheld]
      rfl
  have haccountid : Reads SEnterGame.switch 100 (uint64Field 2 accountid) { success := success }
      { success := success, accountid := accountid } := by
    by_cases hzero : accountid = 0
    · rw [uint64Field, if_pos hzero, hzero]
      exact .nil
    · rw [uint64Field, if_neg hzero, varint_ofNat (by decide), varint_base128]
      refine Reads.field (by decide) fun ctx ptr hready _ hheld _ => ⟨ctx, hready.along, ?_⟩
      rw [SEnterGame.switch, if_neg (by decide), if_pos (by decide), readVarint_held accountid.toNat_lt hheld, UInt64.ofNat_toNat]
  exact hsuccess.append haccountid

/-! ### `S_AddObject` -/

/-- The loop over the objects takes some of them at once. -/
theorem SAddObject.addObjects_held {objects : List ObjectInfo} (hobjects : ∀ info ∈ objects, info.WellFormed) :
    ∀ (info : ObjectInfo) (pkt : SAddObject) (ctx : ParseContext) (ptr fuel : ℕ), info.WellFormed →
      ctx.Ready → 100 ≤ ctx.depth → (∀ info' ∈ info :: objects, info'.serialize.length ≤ maxSize) →
      ctx.Held ptr (toBase128 info.serialize.length ++ info.serialize ++ objects.flatMap fun info => bytesField 1 info.serialize) →
      ctx.limit = ptr + (toBase128 info.serialize.length ++ info.serialize ++
        objects.flatMap fun info => bytesField 1 info.serialize).length →
      ctx.limit < ptr + fuel →
      ∃ taken rest ctx', objects = taken ++ rest ∧ ctx.Along ctx' ∧
        SAddObject.addObjects fuel pkt ctx ptr =
          ({ objects := pkt.objects ++ info :: taken }, some (ptr + (toBase128 info.serialize.length ++ info.serialize ++
            taken.flatMap fun info => bytesField 1 info.serialize).length, ctx')) := by
  induction objects with
  | nil =>
    intro info pkt ctx ptr fuel hinfo hready hdepth hsize hheld hlimit hfuel
    obtain ⟨fuel, rfl⟩ : ∃ n, fuel = n + 1 := ⟨fuel - 1, by omega⟩
    rw [List.flatMap_nil, List.append_nil] at hheld hlimit
    obtain ⟨ctx', halong, heq⟩ := parseMessage_held hinfo (hsize info (.head _)) {} hready hdepth hheld (Nat.le_of_eq hlimit.symm)
    have hlimit' := halong.limit
    refine ⟨[], [], ctx', rfl, halong, ?_⟩
    have hend : ¬ (ctx'.dataAvailable ctx.limit ∧ ctx'.byte ctx.limit = 10) := by
      simp only [dataAvailable, decide_eq_true_eq]
      omega
    rw [SAddObject.addObjects, heq, hinfo.mergeFrom_new, ← hlimit]
    simp only [if_neg hend]
    rw [List.flatMap_nil, List.append_nil, hlimit]
  | cons info' objects ih =>
    intro info pkt ctx ptr fuel hinfo hready hdepth hsize hheld hlimit hfuel
    obtain ⟨fuel, rfl⟩ : ∃ n, fuel = n + 1 := ⟨fuel - 1, by omega⟩
    obtain ⟨hhead, htail⟩ := held_append.1 hheld
    rw [List.length_append] at hlimit
    obtain ⟨ctx', halong, heq⟩ := parseMessage_held hinfo (hsize info (.head _)) {} hready hdepth hhead (by omega)
    have hlimit' := halong.limit
    have hdepth' := halong.depth
    rw [SAddObject.addObjects, heq, hinfo.mergeFrom_new]
    generalize hptr : ptr + (toBase128 info.serialize.length ++ info.serialize).length = ptr₁ at *
    by_cases hgo : ctx'.dataAvailable ptr₁ ∧ ctx'.byte ptr₁ = 10
    · -- the next object is taken in the same loop
      have htag : toBase128 (8 * 1 + 2) = [10] := toBase128_small (by decide)
      have hfield : bytesField 1 info'.serialize = 10 :: (toBase128 info'.serialize.length ++ info'.serialize) := by
        rw [bytesField_eq 1 (by decide) (hsize info' (.tail _ (.head _))), htag]
        rfl
      have hnext : (info' :: objects).flatMap (fun info => bytesField 1 info.serialize) =
          10 :: (toBase128 info'.serialize.length ++ info'.serialize ++ objects.flatMap fun info => bytesField 1 info.serialize) := by
        rw [List.flatMap_cons, hfield]
        rfl
      rw [hnext] at htail hlimit
      rw [List.length_cons] at hlimit
      obtain ⟨-, htail⟩ := held_cons.1 htail
      obtain ⟨taken, rest, ctx'', hsplit, halong', heq'⟩ := ih (fun i hi => hobjects i (.tail _ hi)) info'
        { objects := pkt.objects ++ [info] } ctx' (ptr₁ + 1) fuel (hobjects info' (.head _)) halong.ready (by omega)
        (fun i hi => hsize i (.tail _ hi)) (halong.held htail) (by omega) (by omega)
      refine ⟨info' :: taken, rest, ctx'', by rw [hsplit]; rfl, halong.trans halong', ?_⟩
      simp only [if_pos hgo, heq']
      rw [List.flatMap_cons, hfield, List.append_assoc, List.singleton_append]
      refine Prod.ext rfl (congrArg (fun p => some (p, ctx'')) ?_)
      simp only [List.length_append, List.length_cons] at hptr ⊢
      omega
    · refine ⟨[], info' :: objects, ctx', rfl, halong, ?_⟩
      rw [List.flatMap_nil, List.append_nil, hptr]
      exact if_neg hgo

theorem SAddObject.loop_held {objects : List ObjectInfo} (hobjects : ∀ info ∈ objects, info.WellFormed)
    (hsize : ∀ info ∈ objects, info.serialize.length ≤ maxSize) (pkt : SAddObject) (ctx : ParseContext) (ptr fuel : ℕ)
    (hready : ctx.Ready) (hdepth : 100 ≤ ctx.depth) (hheld : ctx.Held ptr (objects.flatMap fun info => bytesField 1 info.serialize))
    (hlimit : ctx.limit = ptr + (objects.flatMap fun info => bytesField 1 info.serialize).length) (hfuel : ctx.limit < ptr + fuel) :
    ∃ ctx', ctx.Along ctx' ∧
      messageLoop SAddObject.switch fuel pkt ctx ptr = ({ objects := pkt.objects ++ objects }, some (ctx.limit, ctx')) := by
  -- on the number of objects that are left
  induction hn : objects.length using Nat.strong_induction_on generalizing objects pkt ctx ptr fuel with
  | _ n ih =>
  obtain ⟨fuel, rfl⟩ : ∃ n, fuel = n + 1 := ⟨fuel - 1, by omega⟩
  cases objects with
  | nil =>
    rw [List.flatMap_nil, List.length_nil, Nat.add_zero] at hlimit
    refine ⟨ctx, hready.along, ?_⟩
    rw [messageLoop, done_limit hlimit.symm, List.append_nil, hlimit]
  | cons info objects =>
    have hfield := bytesField_eq 1 (by decide) (hsize info (.head _))
    rw [List.flatMap_cons, hfield, List.append_assoc] at hheld hlimit
    obtain ⟨htagHeld, hbody⟩ := held_append.1 hheld
    rw [List.length_append] at hlimit
    have hpos := List.length_pos_iff.2 (toBase128_ne_nil (8 * 1 + 2))
    obtain ⟨ctx₁, halong, hdone, hread⟩ := readTag_round hready (by decide) htagHeld (by omega)
    have hlimit₁ := halong.limit
    have hdepth₁ := halong.depth
    have hready₁ := halong.ready
    obtain ⟨taken, rest, ctx₂, rfl, halong₂, heq⟩ := addObjects_held (fun i hi => hobjects i (.tail _ hi)) info
      pkt ctx₁ _ ctx₁.rounds (hobjects info (.head _)) hready₁ (by omega) hsize (halong.held hbody) (by omega) (rounds_gt hready₁)
    have hlimit₂ := halong₂.limit
    have hdepth₂ := halong₂.depth
    rw [List.flatMap_append, ← List.append_assoc] at hbody hlimit
    obtain ⟨-, hrest⟩ := held_append.1 hbody
    rw [List.length_append] at hlimit
    obtain ⟨ctx₃, halong₃, hloop⟩ := ih rest.length (by rw [← hn, List.length_cons, List.length_append]; omega)
      (fun i hi => hobjects i (.tail _ (List.mem_append_right _ hi))) (fun i hi => hsize i (.tail _ (List.mem_append_right _ hi)))
      { objects := pkt.objects ++ info :: taken } ctx₂ _ fuel halong₂.ready (by omega) (halong₂.held (halong.held hrest)) (by omega)
      (by omega) rfl
    refine ⟨ctx₃, (halong.trans halong₂).trans halong₃, ?_⟩
    have hswitch : SAddObject.switch pkt ctx₁ (ptr + (toBase128 (8 * 1 + 2)).length) (UInt32.ofNat (8 * 1 + 2)) =
        some (SAddObject.addObjects ctx₁.rounds pkt ctx₁ (ptr + (toBase128 (8 * 1 + 2)).length)) := rfl
    rw [messageLoop, hdone]
    simp only [hread, hswitch, heq, hloop]
    rw [List.append_assoc, List.cons_append, hlimit₂, hlimit₁]

/-! ### `S_RemoveObject` -/

theorem packedVarints_held {ids : List UInt64} : ∀ (values : List UInt64) (ctx : ParseContext) (ptr fuel : ℕ), ctx.Ready →
    ctx.Held ptr (ids.flatMap varint) → ctx.limit = ptr + (ids.flatMap varint).length → ctx.limit < ptr + fuel →
    ∃ ctx', ctx.Along ctx' ∧ packedVarints fuel values ctx ptr = (values ++ ids, some (ctx.limit, ctx')) := by
  induction ids with
  | nil =>
    intro values ctx ptr fuel hready _ hlimit hfuel
    obtain ⟨fuel, rfl⟩ : ∃ n, fuel = n + 1 := ⟨fuel - 1, by omega⟩
    rw [List.flatMap_nil, List.length_nil, Nat.add_zero] at hlimit
    refine ⟨ctx, hready.along, ?_⟩
    rw [packedVarints, done_limit hlimit.symm, List.append_nil, hlimit]
  | cons id ids ih =>
    intro values ctx ptr fuel hready hheld hlimit hfuel
    obtain ⟨fuel, rfl⟩ : ∃ n, fuel = n + 1 := ⟨fuel - 1, by omega⟩
    rw [List.flatMap_cons, varint_base128] at hheld hlimit
    obtain ⟨hid, hrest⟩ := held_append.1 hheld
    have hpos := List.length_pos_iff.2 (toBase128_ne_nil id.toNat)
    rw [List.length_append] at hlimit
    obtain ⟨ctx₁, hdone, halong⟩ := done_before hready (show ptr < ctx.limit by omega)
    have hlimit₁ := halong.limit
    obtain ⟨ctx₂, halong₂, heq⟩ := ih (values ++ [id]) ctx₁ _ fuel halong.ready (halong.held hrest) (by omega)
      (by omega)
    refine ⟨ctx₂, halong.trans halong₂, ?_⟩
    rw [packedVarints, hdone]
    simp only [readVarint_held id.toNat_lt (halong.held hid), UInt64.ofNat_toNat, heq]
    rw [List.append_assoc, hlimit₁]
    rfl

theorem SRemoveObject.reads {id : List UInt64} (hsize : (id.flatMap varint).length ≤ maxSize) :
    Reads SRemoveObject.switch 100 (Msg.removeObject id).serialize {} { id := id } := by
  rw [Msg.serialize]
  split
  · next h =>
    rw [h]
    exact .nil
  · rw [bytesField_eq 1 (by decide) hsize]
    refine Reads.field (by decide) fun ctx ptr hready hdepth hheld hlimit => ?_
    obtain ⟨hlen, hbody⟩ := held_append.1 hheld
    rw [List.length_append, ← Nat.add_assoc] at hlimit ⊢
    generalize hptr : ptr + (toBase128 (id.flatMap varint).length).length = ptr₁ at *
    have hlimit' := hready.limit_le
    obtain ⟨ctx₁, halong, heq⟩ := packedVarints_held [] { ctx with limit := ptr₁ + (id.flatMap varint).length } ptr₁
      ctx.rounds ⟨Nat.le_trans hlimit hlimit', hready.bufferEnd, hready.lastTagMinus1⟩ (hbody.congr rfl) rfl
      (by simp only [rounds]; omega)
    have hready₁ := halong.ready
    have hdata := halong.data
    refine ⟨{ ctx₁ with limit := ctx.limit }, ⟨hdata, rfl, halong.depth, hdata ▸ hlimit', hready₁.bufferEnd, hready₁.lastTagMinus1⟩, ?_⟩
    rw [SRemoveObject.switch, if_pos (by decide), readPackedVarint, readSize_held hsize hlen]
    simp only [hptr, if_neg (Nat.not_lt.2 hlimit), heq, popLimit, endedAtLimit, hready₁.lastTagMinus1, decide_true, if_true]
    rfl

/-! ### All of them -/

theorem parsed_of_parse {μ : Type} {switch : Switch μ} {msg msg' : μ} {data : List UInt8}
    (h : parseFromArray switch msg data = (true, msg')) : parsed switch msg data = some msg' := by
  rw [parsed, h]

theorem SMyPlayer.reads {info : ObjectInfo} (h : info.WellFormed) (hsize : info.serialize.length ≤ maxSize) :
    Reads SMyPlayer.switch 100 (Msg.myPlayer info).serialize {} { info? := some info } := by
  have hswitch (ctx : ParseContext) (ptr : ℕ) : SMyPlayer.switch {} ctx ptr 10 =
      some (SMyPlayer.mk (some (ObjectInfo.parseMessage {} ctx ptr).1), (ObjectInfo.parseMessage {} ctx ptr).2) := rfl
  have hreads := reads_record 1 h hsize (by decide) {} (fun info => SMyPlayer.mk (some info)) hswitch
  rwa [h.mergeFrom_new] at hreads

theorem SMove.reads {info : ObjectInfo} (h : info.WellFormed) (hsize : info.serialize.length ≤ maxSize) :
    Reads SMove.switch 100 (Msg.move info).serialize {} { info? := some info } := by
  have hswitch (ctx : ParseContext) (ptr : ℕ) : SMove.switch {} ctx ptr 10 =
      some (SMove.mk (some (ObjectInfo.parseMessage {} ctx ptr).1), (ObjectInfo.parseMessage {} ctx ptr).2) := rfl
  have hreads := reads_record 1 h hsize (by decide) {} (fun info => SMove.mk (some info)) hswitch
  rwa [h.mergeFrom_new] at hreads

theorem SAttack.reads {target attacker : ObjectInfo} (htarget : target.WellFormed) (hattacker : attacker.WellFormed)
    (hsize : target.serialize.length ≤ maxSize) (hsize' : attacker.serialize.length ≤ maxSize) :
    Reads SAttack.switch 100 (Msg.attack target attacker).serialize {}
      { targetinfo? := some target, attackerinfo? := some attacker } := by
  have hfirst (ctx : ParseContext) (ptr : ℕ) : SAttack.switch {} ctx ptr 10 =
      some (SAttack.mk (some (ObjectInfo.parseMessage {} ctx ptr).1) none, (ObjectInfo.parseMessage {} ctx ptr).2) := rfl
  have hsecond (ctx : ParseContext) (ptr : ℕ) : SAttack.switch (.mk (some target) none) ctx ptr 18 =
      some (SAttack.mk (some target) (some (ObjectInfo.parseMessage {} ctx ptr).1), (ObjectInfo.parseMessage {} ctx ptr).2) := rfl
  have hreads := reads_record 1 htarget hsize (by decide) {} (fun info => SAttack.mk (some info) none) hfirst
  have hreads' := reads_record 2 hattacker hsize' (by decide) {} (fun info => SAttack.mk (some target) (some info)) hsecond
  rw [htarget.mergeFrom_new] at hreads
  rw [hattacker.mergeFrom_new] at hreads'
  exact hreads.append hreads'

theorem SAddObject.parse {objects : List ObjectInfo} (hobjects : ∀ info ∈ objects, info.WellFormed)
    (hsize : ∀ info ∈ objects, info.serialize.length ≤ maxSize) :
    parseFromArray SAddObject.switch {} (Msg.addObject objects).serialize = (true, { objects := objects }) := by
  have hready := ready_initFrom (Msg.addObject objects).serialize
  obtain ⟨ctx', halong, heq⟩ := loop_held hobjects hsize {} _ 0 _ hready (Nat.le_refl _) (held_initFrom _) (Nat.zero_add _).symm
    (rounds_gt hready)
  rw [parseFromArray]
  simp only [heq, endedAtLimit, halong.ready.lastTagMinus1, decide_true]
  rfl

theorem length_le_flatMap {α β : Type} {f : α → List β} {a : α} {l : List α} (h : a ∈ l) : (f a).length ≤ (l.flatMap f).length := by
  obtain ⟨l₁, l₂, rfl⟩ := List.append_of_mem h
  rw [List.flatMap_append, List.flatMap_cons, List.length_append, List.length_append]
  omega

/-- **What the server serializes, a client parses as the same message.** -/
theorem Msg.parse_serialize (msg : Msg) (h : msg.WellFormed) (hsize : msg.serialize.length ≤ maxSize) :
    Msg.parse msg.pktId msg.serialize = some msg := by
  cases msg with
  | enterGame success accountid =>
    have hparse := parsed_of_parse (SEnterGame.reads success accountid).parse
    simp only [Msg.parse, Msg.pktId, if_true, hparse, Option.map_some]
  | myPlayer info =>
    have hlen := length_le_bytesField 1 info.serialize
    have hparse := parsed_of_parse (SMyPlayer.reads h (hlen.trans hsize)).parse
    simp [Msg.parse, Msg.pktId, hparse]
  | addObject objects =>
    have hsizes : ∀ info ∈ objects, info.serialize.length ≤ maxSize := fun info hinfo =>
      (length_le_bytesField 1 info.serialize).trans
        ((length_le_flatMap (f := fun info : ObjectInfo => bytesField 1 info.serialize) hinfo).trans hsize)
    have hparse := parsed_of_parse (SAddObject.parse h hsizes)
    simp [Msg.parse, Msg.pktId, hparse]
  | removeObject id =>
    have hids : (id.flatMap varint).length ≤ maxSize := by
      rw [Msg.serialize] at hsize
      split at hsize
      · next h => rw [h]; exact Nat.zero_le _
      · exact (length_le_bytesField 1 _).trans hsize
    have hparse := parsed_of_parse (SRemoveObject.reads hids).parse
    simp [Msg.parse, Msg.pktId, hparse]
  | move info =>
    have hlen := length_le_bytesField 1 info.serialize
    have hparse := parsed_of_parse (SMove.reads h (hlen.trans hsize)).parse
    simp [Msg.parse, Msg.pktId, hparse]
  | attack targetinfo attackerinfo =>
    have htarget := length_le_bytesField 1 targetinfo.serialize
    have hattacker := length_le_bytesField 2 attackerinfo.serialize
    rw [Msg.serialize, List.length_append] at hsize
    have hparse := parsed_of_parse (SAttack.reads h.1 h.2 (by omega) (by omega)).parse
    simp [Msg.parse, Msg.pktId, hparse]

end ZeldaServer
