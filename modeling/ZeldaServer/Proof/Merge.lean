import ZeldaServer.Proof.Unknown

/-!
# Reading what was serialized

A message that is parsed from its fields, one after the other: `Reads`. The fields of an
`ObjectInfo` that are read into another one are merged into it.

* `reads_serialize`: parsing the bytes of a record is `MergeFrom`.
* `parseMessage_held`: the same for a record inside another message.
-/

namespace ZeldaServer

open Lib ParseContext

/-! ## Fields of a message -/

section Reads

variable {μ : Type} {switch : Switch μ} {depth : ℕ} {bs bs' : List UInt8} {msg msg' msg'' : μ}

/-- The bytes are fields that make the second message of the first one. -/
def Reads (switch : Switch μ) (depth : ℕ) (bs : List UInt8) (msg msg' : μ) : Prop :=
  ∀ (ctx : ParseContext) (ptr fuel : ℕ), ctx.Ready → depth ≤ ctx.depth → ctx.Held ptr bs →
    ptr + bs.length ≤ ctx.limit → ctx.limit < ptr + fuel →
    ∃ ctx' fuel', ctx.Along ctx' ∧ ctx.limit < ptr + bs.length + fuel' ∧
      messageLoop switch fuel msg ctx ptr = messageLoop switch fuel' msg' ctx' (ptr + bs.length)

theorem Reads.nil : Reads switch depth [] msg msg :=
  fun ctx _ fuel hready _ _ _ hfuel => ⟨ctx, fuel, hready.along, hfuel, rfl⟩

theorem Reads.append (h : Reads switch depth bs msg msg') (h' : Reads switch depth bs' msg' msg'') :
    Reads switch depth (bs ++ bs') msg msg'' := by
  intro ctx ptr fuel hready hdepth hheld hlimit hfuel
  obtain ⟨hbs, hbs'⟩ := held_append.1 hheld
  rw [List.length_append] at hlimit
  obtain ⟨ctx₁, fuel₁, halong, hfuel₁, heq⟩ := h ctx ptr fuel hready hdepth hbs (by omega) hfuel
  have hdepth₁ := halong.depth
  have hlimit₁ := halong.limit
  obtain ⟨ctx₂, fuel₂, halong₂, hfuel₂, heq₂⟩ := h' ctx₁ (ptr + bs.length) fuel₁ halong.ready (by omega) (halong.held hbs')
    (by omega) (by omega)
  refine ⟨ctx₂, fuel₂, halong.trans halong₂, ?_, ?_⟩
  · rw [List.length_append]
    omega
  · rw [heq, heq₂, List.length_append, Nat.add_assoc]

/-- One case of the `switch`. -/
theorem Reads.field {tag : ℕ} {body : List UInt8} (htag : tag < 2 ^ 32)
    (h : ∀ (ctx : ParseContext) (ptr : ℕ), ctx.Ready → depth ≤ ctx.depth → ctx.Held ptr body → ptr + body.length ≤ ctx.limit →
      ∃ ctx', ctx.Along ctx' ∧ switch msg ctx ptr (UInt32.ofNat tag) = some (msg', some (ptr + body.length, ctx'))) :
    Reads switch depth (toBase128 tag ++ body) msg msg' := by
  intro ctx ptr fuel hready hdepth hheld hlimit hfuel
  obtain ⟨htagHeld, hbody⟩ := held_append.1 hheld
  have hpos := List.length_pos_iff.2 (toBase128_ne_nil tag)
  rw [List.length_append] at hlimit
  obtain ⟨fuel, rfl⟩ : ∃ n, fuel = n + 1 := ⟨fuel - 1, by omega⟩
  obtain ⟨ctx₁, halong, hdone, hread⟩ := readTag_round hready htag htagHeld (by omega)
  have hlimit₁ := halong.limit
  have hdepth₁ := halong.depth
  obtain ⟨ctx₂, halong₂, hswitch⟩ := h ctx₁ _ halong.ready (by omega) (halong.held hbody) (by omega)
  refine ⟨ctx₂, fuel, halong.trans halong₂, ?_, ?_⟩
  · rw [List.length_append]
    omega
  · rw [messageLoop, hdone]
    simp only [hread, hswitch]
    rw [List.length_append, Nat.add_assoc]

theorem not_ends {n : ℕ} (hn : n < 2 ^ 32) (h8 : 8 ≤ n) (h4 : n % 8 ≠ 4) : ¬ ends (UInt32.ofNat n) = true := by
  rw [ends_ofNat hn]
  omega

theorem ofNat_eq_iff {n : ℕ} {k : UInt32} (hn : n < 2 ^ 32) : UInt32.ofNat n = k ↔ n = k.toNat := by
  rw [← UInt32.toNat_inj, UInt32.toNat_ofNat', Nat.mod_eq_of_lt hn]

/-- Fields with tags for which the `switch` stores what the parser of unknown fields makes of them. -/
theorem reads_fields {ok : ℕ → Prop} (store : μ → List UInt8 → μ) (hnil : ∀ msg, store msg [] = msg)
    (happend : ∀ msg bs bs', store (store msg bs) bs' = store msg (bs ++ bs'))
    (hswitch : ∀ (msg : μ) (ctx : ParseContext) (ptr tag : ℕ), ok tag → tag < 2 ^ 32 → ¬ ends (UInt32.ofNat tag) = true →
      switch msg ctx ptr (UInt32.ofNat tag) =
        some (store msg (ctx.unknownFieldParse ptr (UInt32.ofNat tag)).1, (ctx.unknownFieldParse ptr (UInt32.ofNat tag)).2))
    (h : Fields maxSize depth ok bs) (msg : μ) : Reads switch depth bs msg (store msg bs) := by
  induction h generalizing msg with
  | nil =>
    rw [hnil]
    exact .nil
  | @cons tag body rest hok hfield _ ih =>
    obtain ⟨h8, h32⟩ := hfield.tag_lt
    have hfirst : Reads switch depth (toBase128 tag ++ body) msg (store msg (toBase128 tag ++ body)) := by
      refine Reads.field h32 fun ctx ptr hready hdepth hheld hlimit => ?_
      obtain ⟨ctx', halong, heq⟩ := unknownFieldParse_held hfield hready hdepth hheld hlimit
      exact ⟨ctx', halong, by rw [hswitch msg ctx ptr tag hok h32 (not_ends h32 h8 hfield.not_end), heq]⟩
    rw [← happend]
    exact hfirst.append (ih _)

/-- The fields end at the limit. -/
theorem Reads.finish (h : Reads switch depth bs msg msg') (ctx : ParseContext) (ptr fuel : ℕ) (hready : ctx.Ready)
    (hdepth : depth ≤ ctx.depth) (hheld : ctx.Held ptr bs) (hlimit : ctx.limit = ptr + bs.length) (hfuel : ctx.limit < ptr + fuel) :
    ∃ ctx', ctx.Along ctx' ∧ messageLoop switch fuel msg ctx ptr = (msg', some (ctx.limit, ctx')) := by
  obtain ⟨ctx', fuel', halong, hfuel', heq⟩ := h ctx ptr fuel hready hdepth hheld (Nat.le_of_eq hlimit.symm) hfuel
  obtain ⟨fuel', rfl⟩ : ∃ n, fuel' = n + 1 := ⟨fuel' - 1, by omega⟩
  refine ⟨ctx', halong, ?_⟩
  rw [heq, messageLoop, done_limit (hlimit.symm.trans halong.limit.symm), hlimit]

theorem rounds_gt {ctx : ParseContext} {ptr : ℕ} (hready : ctx.Ready) : ctx.limit < ptr + ctx.rounds := by
  have := hready.limit_le
  rw [rounds]
  omega

/-- A message that is parsed from its fields. -/
theorem Reads.parse (h : Reads switch 100 bs msg msg') : parseFromArray switch msg bs = (true, msg') := by
  have hready := ready_initFrom bs
  obtain ⟨ctx', halong, heq⟩ := h.finish _ 0 (initFrom bs).rounds hready (Nat.le_refl _) (held_initFrom bs)
    (Nat.zero_add _).symm (rounds_gt hready)
  rw [parseFromArray]
  simp only [heq, endedAtLimit, halong.ready.lastTagMinus1, decide_true]

end Reads

/-! ## The fields of a record -/

/-- The `switch` of `ObjectInfo::_InternalParse` -/
def ObjectInfo.switch : Switch ObjectInfo := fun info ctx ptr tag =>
  if ends tag then none else some (info.parseField ctx ptr tag)

theorem ObjectInfo.internalParse_eq (fuel : ℕ) (info : ObjectInfo) (ctx : ParseContext) (ptr : ℕ) :
    info.internalParse fuel ctx ptr = messageLoop ObjectInfo.switch fuel info ctx ptr := by
  induction fuel generalizing info ctx ptr with
  | zero => rfl
  | succ fuel ih =>
    rw [ObjectInfo.internalParse, messageLoop]
    rcases ctx.done ptr with _ | ⟨_ | _, ctx⟩
    · rfl
    · rcases htag : ctx.readTag ptr with _ | ⟨ptr, tag⟩
      · simp only [htag]
      by_cases hends : ends tag = true
      · simp only [htag, ObjectInfo.switch, if_pos hends]
      · simp only [htag, ObjectInfo.switch, if_neg hends]
        rcases info.parseField ctx ptr tag with ⟨info', _ | ⟨ptr', ctx'⟩⟩
        · rfl
        · exact ih info' ctx' ptr'
    · rfl

/-- The tags of the fields of an `ObjectInfo`. -/
def ObjectInfo.tags : List ℕ := [8, 16, 24, 32, 42, 48, 56, 64, 72, 80, 88]

/-- A record that can be in a message: an enum value has one name, the name is valid UTF-8,
and unknown fields are fields of the wire format. -/
structure ObjectInfo.WellFormed (info : ObjectInfo) : Prop where
  objecttype : .ofValue info.objecttype.value = info.objecttype
  state : .ofValue info.state.value = info.state
  dir : .ofValue info.dir.value = info.dir
  name : isStructurallyValidUTF8 info.name = true
  name_le : info.name.length ≤ maxSize
  unknownFields : Fields maxSize 99 (fun tag => tag ∉ ObjectInfo.tags) info.unknownFields

variable {info : ObjectInfo} {depth num : ℕ}

theorem ObjectInfo.setVarint_unknown {tag : ℕ} (htag : tag < 2 ^ 32) (hknown : tag ∉ ObjectInfo.tags) (v : UInt64) :
    info.setVarint (UInt32.ofNat tag) v = none := by
  simp only [ObjectInfo.tags, List.mem_cons, not_or] at hknown
  simp only [ObjectInfo.setVarint, ofNat_eq_iff htag]
  simp [hknown]

/-- A varint field of the record; `p` says that it is not left out. -/
theorem reads_uint64Field {α : Type} {n : UInt64} {a old : α} {p : Prop} [Decidable p] (hnum : FieldNumber num)
    (hname : UInt32.ofNat (8 * num) ≠ 42) (set : α → ObjectInfo) (value : UInt64 → α)
    (hset : ∀ v, info.setVarint (UInt32.ofNat (8 * num)) v = some (set (value v))) (ha : value n = a) (hp : n ≠ 0 ↔ p)
    (hold : set old = info) :
    Reads ObjectInfo.switch depth (uint64Field num n) info (set (if p then a else old)) := by
  have hlt := hnum.2
  have hpos := hnum.1
  rw [uint64Field]
  by_cases hn : n = 0
  · rw [if_pos hn, if_neg (hp.not.1 (not_not.2 hn)), hold]
    exact .nil
  · have hsome : (info.setVarint (UInt32.ofNat (8 * num)) 0).isSome := by
      rw [hset]
      rfl
    rw [if_neg hn, if_pos (hp.1 hn), varint_ofNat (by omega), varint_base128]
    refine Reads.field (by omega) fun ctx ptr hready _ hheld _ => ⟨ctx, hready.along, ?_⟩
    rw [ObjectInfo.switch, if_neg (not_ends (by omega) (by omega) (by omega)), ObjectInfo.parseField, if_neg hname, if_pos hsome,
      readVarint_held n.toNat_lt hheld, UInt64.ofNat_toNat]
    simp only [hset, ha, Option.getD_some]

/-- An `int32` is what is left of its 64 bits. -/
theorem int32_signExtend (n : Int32) : n.toInt64.toUInt64.toUInt32.toInt32 = n := by
  rw [← Int32.toBitVec_inj]
  change (n.toBitVec.signExtend 64).setWidth 32 = n.toBitVec
  ext i hi
  have h64 : i < 64 := by omega
  rw [BitVec.getElem_setWidth, BitVec.getLsbD_signExtend]
  simp [hi, h64]

theorem int32_eq_zero (n : Int32) : n.toInt64.toUInt64 = 0 ↔ n = 0 := by
  refine ⟨fun h => ?_, fun h => by rw [h]; rfl⟩
  rw [← int32_signExtend n, h]
  rfl

/-- An `int32` field. -/
theorem reads_int32Field {n old : Int32} (hnum : FieldNumber num) (hname : UInt32.ofNat (8 * num) ≠ 42)
    (set : Int32 → ObjectInfo)
    (hset : ∀ v, info.setVarint (UInt32.ofNat (8 * num)) v = some (set v.toUInt32.toInt32)) (hold : set old = info) :
    Reads ObjectInfo.switch depth (int32Field num n) info (set (if n ≠ 0 then n else old)) :=
  reads_uint64Field hnum hname set (fun v => v.toUInt32.toInt32) hset (int32_signExtend n) (int32_eq_zero n).not hold

/-- An enum field, of a value that has this one name. -/
theorem reads_enumField {α : Type} {n : Int32} {a old : α} (ofValue : Int32 → α) (ha : ofValue n = a) (hnum : FieldNumber num)
    (hname : UInt32.ofNat (8 * num) ≠ 42) (set : α → ObjectInfo)
    (hset : ∀ v, info.setVarint (UInt32.ofNat (8 * num)) v = some (set (ofValue v.toUInt32.toInt32))) (hold : set old = info) :
    Reads ObjectInfo.switch depth (int32Field num n) info (set (if n ≠ 0 then a else old)) :=
  reads_uint64Field hnum hname set (fun v => ofValue v.toUInt32.toInt32) hset
    ((congrArg ofValue (int32_signExtend n)).trans ha) (int32_eq_zero n).not hold

/-- The name; an empty one is left out. -/
theorem reads_name {name : List UInt8} (hvalid : isStructurallyValidUTF8 name = true) (hlen : name.length ≤ maxSize) :
    Reads ObjectInfo.switch depth (if name = [] then [] else bytesField 5 name) info
      { info with name := if name ≠ [] then name else info.name } := by
  have hmax : name.length ≤ 2147483631 := hlen
  split
  · next h =>
    rw [if_neg (not_not.2 h)]
    exact .nil
  · next h =>
    rw [bytesField_base128 (by decide) (by omega), List.append_assoc]
    refine Reads.field (by decide) fun ctx ptr hready _ hheld hlimit => ⟨ctx, hready.along, ?_⟩
    obtain ⟨hsize, hname⟩ := held_append.1 hheld
    rw [List.length_append] at hlimit
    rw [ObjectInfo.switch, if_neg (not_ends (by decide) (by decide) (by decide)), ObjectInfo.parseField, if_pos (by decide),
      readSize_held hlen hsize]
    simp only [readString_within hready (show ptr + (toBase128 name.length).length + name.length ≤ ctx.limit by omega)]
    rw [Held] at hname
    rw [hname, if_pos hvalid, List.length_append, Nat.add_assoc]
    rfl

/-- Unknown fields go to the unknown fields. -/
theorem reads_unknown {bs : List UInt8} (h : Fields maxSize depth (fun tag => tag ∉ ObjectInfo.tags) bs) :
    Reads ObjectInfo.switch depth bs info { info with unknownFields := info.unknownFields ++ bs } := by
  refine reads_fields (fun info fields => { info with unknownFields := info.unknownFields ++ fields }) (fun info => ?_)
    (fun info bs bs' => ?_) (fun info ctx ptr tag hknown htag hends => ?_) h info
  · simp only [List.append_nil]
  · simp only [List.append_assoc]
  · have hname : UInt32.ofNat tag ≠ 42 := by
      rintro h
      rw [ofNat_eq_iff htag] at h
      rw [h] at hknown
      exact hknown (by decide)
    have hsome : ¬ (info.setVarint (UInt32.ofNat tag) 0).isSome := by
      rw [ObjectInfo.setVarint_unknown htag hknown]
      exact Bool.false_ne_true
    rw [ObjectInfo.switch, if_neg hends, ObjectInfo.parseField, if_neg hname, if_neg hsome]

/-! ## Records -/

/-- **Parsing the bytes of a record merges it into the record that is there.** -/
theorem reads_serialize {source : ObjectInfo} (h : source.WellFormed) (info : ObjectInfo) :
    Reads ObjectInfo.switch 99 source.serialize info (info.mergeFrom source) := by
  have hobjectid (info : ObjectInfo) : Reads ObjectInfo.switch 99 (uint64Field 1 source.objectid) info
      { info with objectid := if source.objectid ≠ 0 then source.objectid else info.objectid } :=
    reads_uint64Field (by decide) (by decide) (fun v => { info with objectid := v }) id (fun _ => rfl) rfl Iff.rfl rfl
  have hobjecttype (info : ObjectInfo) : Reads ObjectInfo.switch 99 (int32Field 2 source.objecttype.value) info
      { info with objecttype := if source.objecttype.value ≠ 0 then source.objecttype else info.objecttype } :=
    reads_enumField _ h.objecttype (by decide) (by decide) (fun v => { info with objecttype := v }) (fun _ => rfl) rfl
  have hstate (info : ObjectInfo) : Reads ObjectInfo.switch 99 (int32Field 3 source.state.value) info
      { info with state := if source.state.value ≠ 0 then source.state else info.state } :=
    reads_enumField _ h.state (by decide) (by decide) (fun v => { info with state := v }) (fun _ => rfl) rfl
  have hdir (info : ObjectInfo) : Reads ObjectInfo.switch 99 (int32Field 4 source.dir.value) info
      { info with dir := if source.dir.value ≠ 0 then source.dir else info.dir } :=
    reads_enumField _ h.dir (by decide) (by decide) (fun v => { info with dir := v }) (fun _ => rfl) rfl
  have hhp (info : ObjectInfo) : Reads ObjectInfo.switch 99 (int32Field 6 source.hp) info
      { info with hp := if source.hp ≠ 0 then source.hp else info.hp } :=
    reads_int32Field (by decide) (by decide) (fun v => { info with hp := v }) (fun _ => rfl) rfl
  have hmaxhp (info : ObjectInfo) : Reads ObjectInfo.switch 99 (int32Field 7 source.maxhp) info
      { info with maxhp := if source.maxhp ≠ 0 then source.maxhp else info.maxhp } :=
    reads_int32Field (by decide) (by decide) (fun v => { info with maxhp := v }) (fun _ => rfl) rfl
  have hattack (info : ObjectInfo) : Reads ObjectInfo.switch 99 (int32Field 8 source.attack) info
      { info with attack := if source.attack ≠ 0 then source.attack else info.attack } :=
    reads_int32Field (by decide) (by decide) (fun v => { info with attack := v }) (fun _ => rfl) rfl
  have hdefence (info : ObjectInfo) : Reads ObjectInfo.switch 99 (int32Field 9 source.defence) info
      { info with defence := if source.defence ≠ 0 then source.defence else info.defence } :=
    reads_int32Field (by decide) (by decide) (fun v => { info with defence := v }) (fun _ => rfl) rfl
  have hposx (info : ObjectInfo) : Reads ObjectInfo.switch 99 (int32Field 10 source.posx) info
      { info with posx := if source.posx ≠ 0 then source.posx else info.posx } :=
    reads_int32Field (by decide) (by decide) (fun v => { info with posx := v }) (fun _ => rfl) rfl
  have hposy (info : ObjectInfo) : Reads ObjectInfo.switch 99 (int32Field 11 source.posy) info
      { info with posy := if source.posy ≠ 0 then source.posy else info.posy } :=
    reads_int32Field (by decide) (by decide) (fun v => { info with posy := v }) (fun _ => rfl) rfl
  -- one field after the other, each into what the fields before it have made
  exact (((((((((((hobjectid _).append (hobjecttype _)).append (hstate _)).append (hdir _)).append
    (reads_name h.name h.name_le)).append (hhp _)).append (hmaxhp _)).append (hattack _)).append (hdefence _)).append
    (hposx _)).append (hposy _)).append (reads_unknown h.unknownFields)

/-- A record inside another message. -/
theorem parseMessage_held {source : ObjectInfo} (h : source.WellFormed) (hsize : source.serialize.length ≤ maxSize)
    (info : ObjectInfo) {ctx : ParseContext} {ptr : ℕ} (hready : ctx.Ready) (hdepth : 100 ≤ ctx.depth)
    (hheld : ctx.Held ptr (toBase128 source.serialize.length ++ source.serialize))
    (hlimit : ptr + (toBase128 source.serialize.length ++ source.serialize).length ≤ ctx.limit) :
    ∃ ctx', ctx.Along ctx' ∧ info.parseMessage ctx ptr =
      (info.mergeFrom source, some (ptr + (toBase128 source.serialize.length ++ source.serialize).length, ctx')) := by
  obtain ⟨hlen, hbody⟩ := held_append.1 hheld
  rw [List.length_append, ← Nat.add_assoc] at hlimit ⊢
  generalize hptr : ptr + (toBase128 source.serialize.length).length = ptr₁ at *
  have hlimit' := hready.limit_le
  have hinner : ParseContext.Ready { ctx with limit := ptr₁ + source.serialize.length, depth := ctx.depth - 1 } :=
    ⟨Nat.le_trans hlimit hlimit', hready.bufferEnd, hready.lastTagMinus1⟩
  obtain ⟨ctx₁, halong, heq⟩ := (reads_serialize h info).finish _ ptr₁ ctx.rounds hinner (by simp only; omega)
    (hbody.congr rfl) rfl (by simp only [rounds]; omega)
  have hready₁ := halong.ready
  refine ⟨{ ctx₁ with limit := ctx.limit, depth := ctx₁.depth + 1 }, ⟨halong.data, rfl, ?_, ?_⟩, ?_⟩
  · have hdepth₁ := halong.depth
    simp only at hdepth₁ ⊢
    omega
  · have hdata := halong.data
    exact ⟨hdata ▸ hlimit', hready₁.bufferEnd, hready₁.lastTagMinus1⟩
  · rw [ObjectInfo.parseMessage, readSize_held hsize hlen]
    simp only [hptr, if_neg (show ctx.depth ≠ 0 by omega), ObjectInfo.internalParse_eq, heq, Option.map_some, popLimit,
      endedAtLimit, hready₁.lastTagMinus1, decide_true, if_true]

theorem ite_ne_self {α : Type} [DecidableEq α] (a b : α) : (if a ≠ b then a else b) = a := by
  split
  · rfl
  · next h => exact (not_not.1 h).symm

/-- An enum field that is 0 is the first value. -/
theorem ite_value_self {α : Type} {value : Int32} {a b : α} (ofValue : Int32 → α) (ha : ofValue value = a) (hb : ofValue 0 = b) :
    (if value ≠ 0 then a else b) = a := by
  split
  · rfl
  · next h => rw [← ha, not_not.1 h, hb]

/-- Merged into a new record, a record is itself. -/
theorem ObjectInfo.WellFormed.mergeFrom_new {source : ObjectInfo} (h : source.WellFormed) :
    ObjectInfo.mergeFrom {} source = source := by
  have hobjecttype := ite_value_self (b := .none) _ h.objecttype rfl
  have hstate := ite_value_self (b := .idle) _ h.state rfl
  have hdir := ite_value_self (b := .up) _ h.dir rfl
  simp only [ObjectInfo.mergeFrom, ite_ne_self, hobjecttype, hstate, hdir, List.nil_append]

end ZeldaServer
