import ZeldaServer.Proof.RoundTrip

/-!
# What is accepted

A payload that `ParseFromArray` accepts leaves a message that can be sent, unknown fields and
groups included, and that is parsed from its own bytes again.

* `CMove.accepted_wellFormed`: what is accepted is well formed.
* `CMove.reparse`: the message that is left survives another round.
-/

namespace ZeldaServer

open Lib ParseContext

/-! ## A run of the loop -/

section Loop

variable {μ : Type} {switch : Switch μ} {msg msg' : μ} {ctx ctx' : ParseContext} {ptr ptr' fuel : ℕ}

/-- At the end of the array `done` says so; elsewhere it stops at the limit. -/
theorem done_true (h : ctx.done ptr = some (true, ctx')) (hend : ctx'.lastTagMinus1 = 0) : ptr = ctx.limit := by
  have hstream : ∀ c : ParseContext, c.endOfStream ptr = some (true, ctx') → False := by
    intro c h
    rw [endOfStream] at h
    split at h
    · cases h
    · cases h
      exact absurd hend (show (1 : UInt32) ≠ 0 by decide)
  rw [done] at h
  split at h
  · cases h
  split at h
  · assumption
  split at h
  · cases h
  split at h
  · exact (hstream ctx h).elim
  dsimp only at h
  split at h
  · cases h
  · exact (hstream _ h).elim

/-- A tag that ends the fields is not the limit. -/
theorem ends_ne_one {tag : UInt32} (h : ends tag = true) : tag - 1 ≠ 0 := by
  rintro hzero
  have hone : tag = 1 := by
    rw [← UInt32.sub_add_cancel tag 1, hzero]
    rfl
  rw [hone] at h
  exact absurd h (by decide)

/-- What each field keeps holds at the end of a parse that succeeds. `P` also says where. -/
theorem messageLoop_run (P : μ → ℕ → Prop) (depth : ℕ) (hmono : ∀ {msg : μ} {ptr ptr' : ℕ}, P msg ptr → ptr ≤ ptr' → P msg ptr')
    (hfield : ∀ {msg msg' : μ} {ctx ctx' : ParseContext} {ptr ptr₁ ptr' : ℕ} {tag : UInt32}, ctx.depth = depth → P msg ptr →
      ptr < ptr₁ → switch msg ctx ptr₁ tag = some (msg', some (ptr', ctx')) → P msg' ptr' ∧ Consumed ctx ptr₁ ctx' ptr') :
    messageLoop switch fuel msg ctx ptr = (msg', some (ptr', ctx')) → ctx.depth = depth → P msg ptr →
      P msg' ptr' ∧ Consumed ctx ptr ctx' ptr' ∧ (ctx'.lastTagMinus1 = 0 → ptr' = ctx.limit) := by
  induction fuel generalizing msg ctx ptr with
  | zero =>
    intro h
    cases h
  | succ fuel ih =>
    intro h hdepth hP
    rw [messageLoop] at h
    split at h
    · cases h
    · next hdone =>
      cases h
      exact ⟨hP, done_kept hdone, done_true hdone⟩
    next ctx₁ hdone =>
    have hkept := done_kept hdone
    have hdepth₁ := hkept.depth.trans hdepth
    split at h
    · cases h
    next ptr₁ tag htag =>
    have hlt := readTag_lt htag
    have hkept₁ : Consumed ctx ptr ctx₁ ptr₁ := ⟨hkept.data, hkept.limit, hkept.depth, Nat.le_of_lt hlt⟩
    split at h
    · cases h
    · next msg₂ ptr₂ ctx₂ hswitch =>
      obtain ⟨hP₂, hkept₂⟩ := hfield hdepth₁ hP hlt hswitch
      obtain ⟨hP', hkept', hlimit⟩ := ih h (hkept₂.depth.trans hdepth₁) hP₂
      refine ⟨hP', (hkept₁.trans hkept₂).trans hkept', fun hend => ?_⟩
      rw [hlimit hend, hkept₂.limit, hkept.limit]
    · split at h
      · next hends =>
        cases h
        exact ⟨hmono hP (Nat.le_of_lt hlt), ⟨hkept.data, hkept.limit, hkept.depth, Nat.le_of_lt hlt⟩,
          fun hend => absurd hend (ends_ne_one hends)⟩
      split at h
      · cases h
      · next ptr₂ ctx₂ hunknown =>
        have hstored := unknownFieldParse_stores (Prod.ext rfl hunknown)
        have hkept₂ := hstored.kept
        obtain ⟨hP', hkept', hlimit⟩ := ih h (hkept₂.depth.trans hdepth₁) (hmono hP (Nat.le_trans (Nat.le_of_lt hlt) hkept₂.le))
        refine ⟨hP', (hkept₁.trans hkept₂).trans hkept', fun hend => ?_⟩
        rw [hlimit hend, hkept₂.limit, hkept.limit]

end Loop

/-! ## Records -/

/-- What can be in a record after this many bytes have been parsed. -/
structure ObjectInfo.ParsedBy (info : ObjectInfo) (ptr : ℕ) : Prop where
  wellFormed : info.WellFormed
  name_le : info.name.length ≤ ptr
  unknownFields_le : info.unknownFields.length ≤ 10 * ptr

theorem ObjectInfo.ParsedBy.mono {info : ObjectInfo} {ptr ptr' : ℕ} (h : info.ParsedBy ptr) (hle : ptr ≤ ptr') : info.ParsedBy ptr' :=
  ⟨h.wellFormed, h.name_le.trans hle, h.unknownFields_le.trans (Nat.mul_le_mul_left 10 hle)⟩

theorem ObjectInfo.wellFormed_new : ObjectInfo.WellFormed {} := ⟨rfl, rfl, rfl, rfl, Nat.zero_le _, .nil⟩

theorem ObjectType.value_ofValue (v : Int32) : (ObjectType.ofValue v).value = v := by
  rw [ObjectType.ofValue]
  split
  · next h => exact h.symm
  split
  · next h => exact h.symm
  split
  · next h => exact h.symm
  · rfl

theorem ObjectState.value_ofValue (v : Int32) : (ObjectState.ofValue v).value = v := by
  rw [ObjectState.ofValue]
  split
  · next h => exact h.symm
  split
  · next h => exact h.symm
  split
  · next h => exact h.symm
  · rfl

theorem Dir.value_ofValue (v : Int32) : (Dir.ofValue v).value = v := by
  rw [Dir.ofValue]
  split
  · next h => exact h.symm
  split
  · next h => exact h.symm
  split
  · next h => exact h.symm
  split
  · next h => exact h.symm
  · rfl

/-- A varint goes to a field that has nothing to do with the name and the unknown fields. -/
theorem ObjectInfo.WellFormed.setVarint {info info' : ObjectInfo} {tag : UInt32} {v : UInt64} (h : info.WellFormed)
    (hset : info.setVarint tag v = some info') :
    info'.WellFormed ∧ info'.name = info.name ∧ info'.unknownFields = info.unknownFields := by
  simp only [ObjectInfo.setVarint] at hset
  split_ifs at hset
  · cases hset
    exact ⟨⟨h.objecttype, h.state, h.dir, h.name, h.name_le, h.unknownFields⟩, rfl, rfl⟩
  · cases hset
    exact ⟨⟨congrArg _ (ObjectType.value_ofValue _), h.state, h.dir, h.name, h.name_le, h.unknownFields⟩, rfl, rfl⟩
  · cases hset
    exact ⟨⟨h.objecttype, congrArg _ (ObjectState.value_ofValue _), h.dir, h.name, h.name_le, h.unknownFields⟩, rfl, rfl⟩
  · cases hset
    exact ⟨⟨h.objecttype, h.state, congrArg _ (Dir.value_ofValue _), h.name, h.name_le, h.unknownFields⟩, rfl, rfl⟩
  all_goals
    cases hset
    exact ⟨⟨h.objecttype, h.state, h.dir, h.name, h.name_le, h.unknownFields⟩, rfl, rfl⟩

/-- A tag that is no varint field, and not the name, is unknown. -/
theorem ObjectInfo.tags_of_isSome {info : ObjectInfo} {tag : UInt32} (hname : tag ≠ 42) (hnone : ¬ (info.setVarint tag 0).isSome) :
    tag.toNat ∉ ObjectInfo.tags := by
  intro hmem
  have hmem : tag ∈ [8, 16, 24, 32, 42, 48, 56, 64, 72, 80, 88] := by
    obtain ⟨k, hk, heq⟩ := List.mem_map.1 (show tag.toNat ∈ List.map UInt32.toNat [8, 16, 24, 32, 42, 48, 56, 64, 72, 80, 88] from hmem)
    rwa [← UInt32.toNat_inj.1 heq]
  simp only [List.mem_cons, List.not_mem_nil, or_false, hname, false_or] at hmem
  refine hnone ?_
  rcases hmem with rfl | rfl | rfl | rfl | rfl | rfl | rfl | rfl | rfl | rfl <;> rfl

theorem ObjectInfo.parseField_parsedBy {info info' : ObjectInfo} {ctx ctx' : ParseContext} {ptr ptr₁ ptr' : ℕ} {tag : UInt32}
    (hdepth : ctx.depth = 99) (h : info.ParsedBy ptr) (hlt : ptr < ptr₁)
    (hparse : info.parseField ctx ptr₁ tag = (info', some (ptr', ctx'))) : info'.ParsedBy ptr' ∧ Consumed ctx ptr₁ ctx' ptr' := by
  have hwell := h.wellFormed
  have hname := h.name_le
  have hunknown := h.unknownFields_le
  rw [ObjectInfo.parseField] at hparse
  split at hparse
  · -- the name
    split at hparse
    · cases hparse
    next ptr₂ size hsize =>
    obtain ⟨hlt₂, hmax⟩ := readSize_le hsize
    rcases hstring : ctx.readString ptr₂ size with ⟨name, next⟩
    simp only [hstring] at hparse
    split at hparse
    · next hvalid =>
      cases next with
      | none => cases hparse
      | some next =>
        cases hparse
        obtain ⟨hlen, rfl⟩ := readString_some hstring
        refine ⟨⟨⟨hwell.objecttype, hwell.state, hwell.dir, hvalid, hlen.trans_le hmax, hwell.unknownFields⟩, ?_, ?_⟩, rfl, rfl, rfl, ?_⟩
        · simp only
          omega
        · simp only
          omega
        · omega
    · cases hparse
  next hne =>
  split at hparse
  · -- a varint
    split at hparse
    · cases hparse
    next hsome _ _ value hread =>
    have hlt₂ := readVarint_lt hread
    cases hparse
    rcases hset : info.setVarint tag value with _ | info'
    · exact ⟨⟨hwell, by rw [Option.getD_none]; omega, by rw [Option.getD_none]; omega⟩, rfl, rfl, rfl, Nat.le_of_lt hlt₂⟩
    · obtain ⟨hwell', hname', hunknown'⟩ := hwell.setVarint hset
      refine ⟨⟨hwell', ?_, ?_⟩, rfl, rfl, rfl, Nat.le_of_lt hlt₂⟩
      · rw [Option.getD_some, hname']
        omega
      · rw [Option.getD_some, hunknown']
        omega
  · -- an unknown field
    next hnone =>
    rcases hstore : ctx.unknownFieldParse ptr₁ tag with ⟨fields, res⟩
    rw [hstore] at hparse
    cases hparse
    obtain ⟨⟨body, rfl, hfield⟩, hkept, hlen⟩ := unknownFieldParse_stores hstore
    have hle := hkept.le
    rw [hdepth] at hfield
    refine ⟨⟨⟨hwell.objecttype, hwell.state, hwell.dir, hwell.name, hwell.name_le, ?_⟩, ?_, ?_⟩, hkept⟩
    · exact hwell.unknownFields.append (.single (ObjectInfo.tags_of_isSome hne hnone) hfield)
    · simp only
      omega
    · rw [List.length_append]
      omega

/-- A record that is parsed inside another message. -/
theorem ObjectInfo.parseMessage_parsedBy {info info' : ObjectInfo} {ctx ctx' : ParseContext} {ptr ptr₁ ptr' : ℕ}
    (hdepth : ctx.depth = 100) (h : info.ParsedBy ptr) (hlt : ptr < ptr₁)
    (hparse : info.parseMessage ctx ptr₁ = (info', some (ptr', ctx'))) : info'.ParsedBy ptr' ∧ Consumed ctx ptr₁ ctx' ptr' := by
  rw [ObjectInfo.parseMessage] at hparse
  split at hparse
  · cases hparse
  next ptr₂ size hsize =>
  have hlt₂ := (readSize_le hsize).1
  rw [if_neg (by omega)] at hparse
  rcases hloop : info.internalParse ctx.rounds { ctx with limit := ptr₂ + size, depth := ctx.depth - 1 } ptr₂ with ⟨info₁, res⟩
  simp only [hloop] at hparse
  cases res with
  | none => cases hparse
  | some res =>
    obtain ⟨ptr₃, ctx₃⟩ := res
    rw [Option.map_some, popLimit] at hparse
    split at hparse
    · cases hparse
      rw [ObjectInfo.internalParse_eq] at hloop
      obtain ⟨hparsed, hkept, -⟩ := messageLoop_run ObjectInfo.ParsedBy 99 ObjectInfo.ParsedBy.mono
        (fun {msg msg' ctx ctx' ptr ptr₁ ptr' tag} hdepth hP hlt hswitch => by
          rw [ObjectInfo.switch] at hswitch
          split at hswitch
          · cases hswitch
          · exact ObjectInfo.parseField_parsedBy hdepth hP hlt (Option.some.inj hswitch))
        hloop (by simp only; omega) (h.mono (by omega))
      have hdepth₃ := hkept.depth
      refine ⟨hparsed, hkept.data, rfl, ?_, ?_⟩
      · simp only at hdepth₃ ⊢
        omega
      · exact (Nat.le_of_lt hlt₂).trans hkept.le
    · cases hparse

/-! ## `C_Move` -/

namespace CMove

/-- The length of a varint field. -/
theorem uint64Field_length {num : ℕ} (hnum : num < 16) (n : UInt64) : (uint64Field num n).length ≤ 11 := by
  rw [uint64Field]
  split
  · exact Nat.zero_le _
  · rw [List.length_append, varint_ofNat (by omega), varint_base128]
    have htag : (toBase128 (8 * num)).length ≤ 1 := toBase128_length (k := 0) (by omega)
    have hvalue : (toBase128 n.toNat).length ≤ 10 := toBase128_length (k := 9) (Nat.lt_trans n.toNat_lt (by decide))
    omega

/-- A record is at most this long. -/
theorem serialize_length {info : ObjectInfo} (h : info.name.length ≤ maxSize) :
    info.serialize.length ≤ 116 + info.name.length + info.unknownFields.length := by
  have hmax : info.name.length ≤ 2147483631 := h
  have hname : (if info.name = [] then [] else bytesField 5 info.name).length ≤ 6 + info.name.length := by
    split
    · exact Nat.zero_le _
    · rw [bytesField_eq 5 (by decide) h, List.length_append, List.length_append]
      have htag : (toBase128 (8 * 5 + 2)).length ≤ 1 := toBase128_length (k := 0) (by decide)
      have hlen := toBase128_tag (n := info.name.length) (by omega)
      omega
  have h1 := uint64Field_length (show 1 < 16 by decide) info.objectid
  have h2 := uint64Field_length (show 2 < 16 by decide) info.objecttype.value.toInt64.toUInt64
  have h3 := uint64Field_length (show 3 < 16 by decide) info.state.value.toInt64.toUInt64
  have h4 := uint64Field_length (show 4 < 16 by decide) info.dir.value.toInt64.toUInt64
  have h6 := uint64Field_length (show 6 < 16 by decide) info.hp.toInt64.toUInt64
  have h7 := uint64Field_length (show 7 < 16 by decide) info.maxhp.toInt64.toUInt64
  have h8 := uint64Field_length (show 8 < 16 by decide) info.attack.toInt64.toUInt64
  have h9 := uint64Field_length (show 9 < 16 by decide) info.defence.toInt64.toUInt64
  have h10 := uint64Field_length (show 10 < 16 by decide) info.posx.toInt64.toUInt64
  have h11 := uint64Field_length (show 11 < 16 by decide) info.posy.toInt64.toUInt64
  simp only [ObjectInfo.serialize, int32Field, List.length_append]
  omega

/-- What can be in a `C_Move` after this many bytes have been parsed. -/
structure ParsedBy (pkt : CMove) (ptr : ℕ) : Prop where
  info : ∀ info ∈ pkt.info?, info.ParsedBy ptr
  unknownFields : Fields maxSize 100 (fun tag => tag ≠ 10) pkt.unknownFields

/-- The record that the next field `info` is merged into. -/
theorem ParsedBy.current {pkt : CMove} {ptr : ℕ} (h : pkt.ParsedBy ptr) : pkt.info.ParsedBy ptr := by
  rcases pkt with ⟨_ | info, unknown⟩
  · exact ⟨ObjectInfo.wellFormed_new, Nat.zero_le _, Nat.zero_le _⟩
  · exact h.info info rfl

theorem switch_parsedBy {pkt pkt' : CMove} {ctx ctx' : ParseContext} {ptr ptr₁ ptr' : ℕ} {tag : UInt32} (hdepth : ctx.depth = 100)
    (h : pkt.ParsedBy ptr) (hlt : ptr < ptr₁) (hswitch : CMove.switch pkt ctx ptr₁ tag = some (pkt', some (ptr', ctx'))) :
    pkt'.ParsedBy ptr' ∧ Consumed ctx ptr₁ ctx' ptr' := by
  rw [CMove.switch] at hswitch
  split at hswitch
  · -- the record
    rcases hparse : pkt.info.parseMessage ctx ptr₁ with ⟨info, res⟩
    rw [hparse] at hswitch
    cases hswitch
    obtain ⟨hparsed, hkept⟩ := ObjectInfo.parseMessage_parsedBy hdepth h.current hlt hparse
    refine ⟨⟨fun info' hinfo' => ?_, h.unknownFields⟩, hkept⟩
    cases hinfo'
    exact hparsed
  next hne =>
  split at hswitch
  · cases hswitch
  · -- an unknown field
    rcases hstore : ctx.unknownFieldParse ptr₁ tag with ⟨fields, res⟩
    rw [hstore] at hswitch
    cases hswitch
    obtain ⟨⟨body, rfl, hfield⟩, hkept, -⟩ := unknownFieldParse_stores hstore
    rw [hdepth] at hfield
    have hten : tag.toNat ≠ 10 := fun heq => hne (UInt32.toNat_inj.1 heq)
    have hle := (Nat.le_of_lt hlt).trans hkept.le
    exact ⟨⟨fun info hinfo => (h.info info hinfo).mono hle, h.unknownFields.append (.single hten hfield)⟩, hkept⟩

/-- **What is accepted is well formed.** -/
theorem accepted_wellFormed {data : List UInt8} (hsize : data.length < 2 ^ 16) (h : (CMove.parseFromArray data).1 = true) :
    (CMove.parseFromArray data).2.WellFormed := by
  rw [parseFromArray_eq, ZeldaServer.parseFromArray] at *
  rcases hloop : messageLoop CMove.switch (initFrom data).rounds {} (initFrom data) 0 with ⟨pkt, res⟩
  simp only [hloop] at h ⊢
  cases res with
  | none => cases h
  | some res =>
    obtain ⟨ptr, ctx⟩ := res
    obtain ⟨hparsed, -, hlimit⟩ := messageLoop_run ParsedBy 100
      (fun {msg ptr ptr'} hP hle => ⟨fun info hinfo => (hP.info info hinfo).mono hle, hP.unknownFields⟩)
      (fun {msg msg' ctx ctx' ptr ptr₁ ptr' tag} => switch_parsedBy)
      hloop rfl ⟨fun info hinfo => (Option.not_mem_none info hinfo).elim, .nil⟩
    have hptr : ptr = data.length := hlimit (of_decide_eq_true h)
    refine ⟨fun info hinfo => ?_, hparsed.unknownFields⟩
    obtain ⟨hwell, hname, hunknown⟩ := hparsed.info info hinfo
    refine ⟨hwell, (serialize_length hwell.name_le).trans ?_⟩
    rw [maxSize, kSlopBytes]
    omega

/-- **The message that is left of an accepted payload is parsed from its own bytes again.** -/
theorem reparse {data : List UInt8} (hsize : data.length < 2 ^ 16) (h : (CMove.parseFromArray data).1 = true) :
    CMove.parseFromArray (CMove.parseFromArray data).2.serialize = (true, (CMove.parseFromArray data).2) :=
  (accepted_wellFormed hsize h).parse

/-- A group that nobody knows in the record, and a field that nobody knows behind it. -/
theorem reparse_group :
    (CMove.parseFromArray [10, 10, 8, 5, 42, 2, 65, 66, 0x63, 0x08, 7, 0x64, 0x10, 5]).1 = true ∧
    CMove.parseFromArray (CMove.parseFromArray [10, 10, 8, 5, 42, 2, 65, 66, 0x63, 0x08, 7, 0x64, 0x10, 5]).2.serialize =
      (true, (CMove.parseFromArray [10, 10, 8, 5, 42, 2, 65, 66, 0x63, 0x08, 7, 0x64, 0x10, 5]).2) := by
  have h : (CMove.parseFromArray [10, 10, 8, 5, 42, 2, 65, 66, 0x63, 0x08, 7, 0x64, 0x10, 5]).1 = true := by decide +kernel
  exact ⟨h, reparse (by decide) h⟩

end CMove

end ZeldaServer
