import ZeldaServer.Lib.WireFormat
import ZeldaServer.Proof.Wire

/-!
# Unknown fields

What the parser of unknown fields stores, and what it makes of that when it reads it again.

* `fieldParser_held`: a field of the wire format is stored as it stands.
* `fieldParser_stores`: whatever is read, what is stored is a field of the wire format.
-/

namespace ZeldaServer

open Lib

namespace ParseContext

variable {ctx ctx' : ParseContext} {ptr ptr' fuel depth num : ℕ} {body bs : List UInt8} {tag : UInt32}
  {child : ParseContext → ℕ → List UInt8 × Option (ℕ × ParseContext)}

/-! ## Tags -/

theorem tag_toNat (hnum : FieldNumber num) {k : ℕ} (hk : k < 8) : (UInt32.ofNat (8 * num + k)).toNat = 8 * num + k := by
  have hlt := hnum.2
  rw [UInt32.toNat_ofNat']
  omega

theorem tag_number (hnum : FieldNumber num) {k : ℕ} (hk : k < 8) : (UInt32.ofNat (8 * num + k) >>> 3).toNat = num := by
  have h3 : (3 : UInt32).toNat % 32 = 3 := rfl
  rw [UInt32.toNat_shiftRight, tag_toNat hnum hk, h3, Nat.shiftRight_eq_div_pow]
  omega

theorem and_seven (n : ℕ) : (UInt32.ofNat n &&& 7).toNat = n % 8 := by
  have h7 : (7 : UInt32).toNat = 2 ^ 3 - 1 := rfl
  rw [UInt32.toNat_and, h7, Nat.and_two_pow_sub_one_eq_mod, UInt32.toNat_ofNat']
  omega

theorem tag_type (hnum : FieldNumber num) {k : ℕ} (hk : k < 8) : UInt32.ofNat (8 * num + k) &&& 7 = UInt32.ofNat k := by
  have hlt := hnum.2
  rw [← UInt32.toNat_inj, and_seven _, UInt32.toNat_ofNat']
  omega

theorem ends_ofNat {n : ℕ} (hn : n < 2 ^ 32) : ends (UInt32.ofNat n) = true ↔ n % 8 = 4 ∨ n = 0 := by
  have h4 : (4 : UInt32).toNat = 4 := rfl
  have h0 : (0 : UInt32).toNat = 0 := rfl
  rw [ends, Bool.or_eq_true, decide_eq_true_eq, decide_eq_true_eq, ← UInt32.toNat_inj, ← UInt32.toNat_inj, and_seven n,
    h4, h0, UInt32.toNat_ofNat', Nat.mod_eq_of_lt hn]

/-! ## Fields that stand there -/

/-- A parser of groups stores what is a group, and ends behind the tag that ends it. -/
def Takes (child : ParseContext → ℕ → List UInt8 × Option (ℕ × ParseContext)) (fuel depth : ℕ) : Prop :=
  ∀ (ctx : ParseContext) (ptr num : ℕ) (fields : List UInt8), ctx.Ready → depth ≤ ctx.depth + 1 →
    Groups maxSize depth fields → FieldNumber num → ctx.Held ptr (fields ++ toBase128 (8 * num + 4)) →
    ptr + (fields ++ toBase128 (8 * num + 4)).length ≤ ctx.limit → ctx.limit < ptr + fuel →
    ∃ ctx', ctx.Along ctx' ∧ child ctx ptr =
      (fields, some (ptr + (fields ++ toBase128 (8 * num + 4)).length, ctx'.setLastTag (UInt32.ofNat (8 * num + 4))))

theorem parseGroup_held {fields : List UInt8} (hready : ctx.Ready) (hdepth : depth ≤ ctx.depth)
    (hgroup : Groups maxSize depth fields) (hnum : FieldNumber num)
    (hheld : ctx.Held ptr (fields ++ toBase128 (8 * num + 4)))
    (hlimit : ptr + (fields ++ toBase128 (8 * num + 4)).length ≤ ctx.limit) (hfuel : ctx.limit < ptr + fuel)
    (hchild : Takes child fuel depth) :
    ∃ ctx', ctx.Along ctx' ∧ ctx.parseGroup ptr child num =
      (toBase128 (8 * num + 3) ++ (fields ++ toBase128 (8 * num + 4)),
        some (ptr + (fields ++ toBase128 (8 * num + 4)).length, ctx')) := by
  have hlt := hnum.2
  have hpos : ctx.depth ≠ 0 := by
    rintro hzero
    rw [hzero, Nat.le_zero] at hdepth
    rw [hdepth] at hgroup
    exact hgroup
  have hready' : ParseContext.Ready { ctx with depth := ctx.depth - 1 } := ⟨hready.limit_le, hready.bufferEnd, hready.lastTagMinus1⟩
  obtain ⟨ctx', halong, heq⟩ := hchild { ctx with depth := ctx.depth - 1 } ptr num fields hready'
    (by simp only; omega) hgroup hnum (hheld.congr rfl) hlimit hfuel
  have hready'' := halong.ready
  refine ⟨{ ctx' with lastTagMinus1 := 0, depth := ctx'.depth + 1 }, ⟨halong.data, halong.limit, ?_, ?_⟩, ?_⟩
  · rw [halong.depth]
    exact Nat.succ_pred_eq_of_ne_zero hpos
  · exact ⟨hready''.limit_le, hready''.bufferEnd, rfl⟩
  · have hend : (ctx'.setLastTag (UInt32.ofNat (8 * num + 4))).lastTagMinus1 = (UInt64.ofNat (8 * num + 3)).toUInt32 := by
      have hone : UInt32.ofNat (8 * num + 4) = UInt32.ofNat (8 * num + 3) + 1 := UInt32.ofNat_add (8 * num + 3) 1
      rw [setLastTag]
      simp only [hone, UInt32.add_sub_cancel]
      rw [← UInt32.toNat_inj, UInt64.toNat_toUInt32, UInt64.toNat_ofNat', UInt32.toNat_ofNat']
      omega
    rw [parseGroup, if_neg hpos, heq, varint_ofNat (by omega), varint_ofNat (by omega)]
    simp only [hend, ne_eq, not_true_eq_false, if_false, List.append_assoc]
    rfl

/-- **A field of the wire format is stored as it stands.** -/
theorem fieldParser_held {tag : ℕ} (hfield : Field maxSize (Groups maxSize depth) tag body) (hready : ctx.Ready)
    (hdepth : depth ≤ ctx.depth) (hheld : ctx.Held ptr body) (hlimit : ptr + body.length ≤ ctx.limit)
    (hfuel : ctx.limit < ptr + fuel) (hchild : Takes child fuel depth) :
    ∃ ctx', ctx.Along ctx' ∧
      ctx.fieldParser ptr child (UInt32.ofNat tag) = (toBase128 tag ++ body, some (ptr + body.length, ctx')) := by
  cases hfield with
  | @varint num value hnum hvalue =>
    have hne : num ≠ 0 := Nat.ne_of_gt hnum.1
    have hlt := hnum.2
    refine ⟨ctx, hready.along, ?_⟩
    have htype := tag_type hnum (k := 0) (by decide)
    have hnumber := tag_number hnum (k := 0) (by decide)
    rw [Nat.add_zero] at htype hnumber
    rw [fieldParser, hnumber, if_neg hne, htype, if_pos (by decide), readVarint_held hvalue hheld]
    simp only [varint_ofNat hvalue, varint_ofNat (show 8 * num < 2 ^ 64 by omega)]
  | @fixed64 num _ hnum hlen =>
    have hne : num ≠ 0 := Nat.ne_of_gt hnum.1
    have hlt := hnum.2
    refine ⟨ctx, hready.along, ?_⟩
    rw [Held, hlen] at hheld
    rw [fieldParser, tag_number hnum (by decide), if_neg hne, tag_type hnum (by decide), if_neg (by decide), if_pos (by decide), hheld,
      hlen, varint_ofNat (by omega)]
  | @delimited num bytes hnum hlen =>
    have hne : num ≠ 0 := Nat.ne_of_gt hnum.1
    have hlt := hnum.2
    have hlen' : bytes.length ≤ 2147483631 := hlen
    obtain ⟨hsize, hbytes⟩ := held_append.1 hheld
    rw [List.length_append] at hlimit
    refine ⟨ctx, hready.along, ?_⟩
    rw [fieldParser, tag_number hnum (by decide), if_neg hne, tag_type hnum (by decide), if_neg (by decide), if_neg (by decide),
      if_pos (by decide), parseLengthDelimited, readSize_held hlen hsize]
    simp only [readString_within hready (show ptr + (toBase128 bytes.length).length + bytes.length ≤ ctx.limit by omega)]
    rw [Held] at hbytes
    rw [hbytes, bytesField_base128 hlt (by omega), List.append_assoc, List.length_append, ← Nat.add_assoc]
    rfl
  | @group num fields hnum hfields =>
    have hne : num ≠ 0 := Nat.ne_of_gt hnum.1
    obtain ⟨ctx', halong, heq⟩ := parseGroup_held hready hdepth hfields hnum hheld hlimit hfuel hchild
    refine ⟨ctx', halong, ?_⟩
    rw [fieldParser, tag_number hnum (by decide), if_neg hne, tag_type hnum (by decide), if_neg (by decide), if_neg (by decide),
      if_neg (by decide), if_pos (by decide), heq]
  | @fixed32 num _ hnum hlen =>
    have hne : num ≠ 0 := Nat.ne_of_gt hnum.1
    have hlt := hnum.2
    refine ⟨ctx, hready.along, ?_⟩
    rw [Held, hlen] at hheld
    rw [fieldParser, tag_number hnum (by decide), if_neg hne, tag_type hnum (by decide), if_neg (by decide), if_neg (by decide),
      if_neg (by decide), if_neg (by decide), if_pos (by decide), hheld, hlen, varint_ofNat (by omega)]

/-- A round of `wireFormatParser` before the limit: the tag that stands there. -/
theorem readTag_round (hready : ctx.Ready) {n : ℕ} (hn : n < 2 ^ 32) (hheld : ctx.Held ptr (toBase128 n))
    (hptr : ptr < ctx.limit) :
    ∃ ctx', ctx.Along ctx' ∧ ctx.done ptr = some (false, ctx') ∧
      ctx'.readTag ptr = some (ptr + (toBase128 n).length, UInt32.ofNat n) := by
  obtain ⟨ctx', hdone, halong⟩ := done_before hready hptr
  exact ⟨ctx', halong, hdone, readTag_held hn (halong.held hheld)⟩

theorem wireFormatParser_takes : ∀ fuel depth : ℕ, Takes (wireFormatParser fuel) fuel depth := by
  intro fuel
  induction fuel with
  | zero =>
    intro depth ctx ptr num fields _ _ _ _ _ hlimit hfuel
    omega
  | succ fuel ih =>
    intro depth ctx ptr num fields hready hdepth hgroup hnum hheld hlimit hfuel
    have hlt := hnum.2
    cases depth with
    | zero => exact hgroup.elim
    | succ depth =>
      cases hgroup with
      | nil =>
        have hlen := List.length_pos_iff.2 (toBase128_ne_nil (8 * num + 4))
        rw [List.nil_append] at hheld hlimit
        obtain ⟨ctx', halong, hdone, htag⟩ := readTag_round hready (by omega) hheld (by omega)
        refine ⟨ctx', halong, ?_⟩
        have hends : ends (UInt32.ofNat (8 * num + 4)) = true := (ends_ofNat (by omega)).2 (.inl (by omega))
        rw [wireFormatParser, hdone]
        simp only [htag, hends, if_true]
        rfl
      | @cons tag body rest _ hfield hrest =>
        obtain ⟨htag8, htag32⟩ := hfield.tag_lt
        have hlen := List.length_pos_iff.2 (toBase128_ne_nil tag)
        rw [List.append_assoc, List.append_assoc] at hheld
        obtain ⟨htagHeld, hheld⟩ := held_append.1 hheld
        obtain ⟨hbody, hheld⟩ := held_append.1 hheld
        simp only [List.length_append] at hlimit
        obtain ⟨ctx₁, halong, hdone, hread⟩ := readTag_round hready htag32 htagHeld (by omega)
        have hends : ¬ ends (UInt32.ofNat tag) = true := by
          have hne := hfield.not_end
          rw [ends_ofNat htag32]
          omega
        have hlimit₁ := halong.limit
        have hdepth₁ := halong.depth
        obtain ⟨ctx₂, halong₂, hparse⟩ := fieldParser_held hfield halong.ready
          (by omega) (halong.held hbody) (by omega) (by omega) (ih depth)
        have hlimit₂ := halong₂.limit
        have hdepth₂ := halong₂.depth
        obtain ⟨ctx₃, halong₃, hgo⟩ := ih (depth + 1) ctx₂ _ num rest halong₂.ready (by omega) hrest hnum
          (halong₂.held (halong.held hheld)) (by simp only [List.length_append]; omega) (by omega)
        refine ⟨ctx₃, (halong.trans halong₂).trans halong₃, ?_⟩
        rw [wireFormatParser, hdone]
        simp only [hread, if_neg hends, hparse, hgo, List.append_assoc, List.length_append]
        simp only [Nat.add_assoc]

theorem unknownFieldParse_held {tag : ℕ} (hfield : Field maxSize (Groups maxSize depth) tag body) (hready : ctx.Ready)
    (hdepth : depth ≤ ctx.depth) (hheld : ctx.Held ptr body) (hlimit : ptr + body.length ≤ ctx.limit) :
    ∃ ctx', ctx.Along ctx' ∧
      ctx.unknownFieldParse ptr (UInt32.ofNat tag) = (toBase128 tag ++ body, some (ptr + body.length, ctx')) := by
  refine fieldParser_held hfield hready hdepth hheld hlimit ?_ (wireFormatParser_takes ctx.rounds depth)
  have := hready.limit_le
  rw [rounds]
  omega

/-! ## What is stored -/

/-- The parse has gone on in the same array, under the same limits. -/
structure Consumed (ctx : ParseContext) (ptr : ℕ) (ctx' : ParseContext) (ptr' : ℕ) : Prop where
  data : ctx'.data = ctx.data
  limit : ctx'.limit = ctx.limit
  depth : ctx'.depth = ctx.depth
  le : ptr ≤ ptr'

theorem Consumed.trans {ctx₁ ctx₂ ctx₃ : ParseContext} {ptr₁ ptr₂ ptr₃ : ℕ} (h : Consumed ctx₁ ptr₁ ctx₂ ptr₂)
    (h' : Consumed ctx₂ ptr₂ ctx₃ ptr₃) : Consumed ctx₁ ptr₁ ctx₃ ptr₃ :=
  ⟨h'.data.trans h.data, h'.limit.trans h.limit, h'.depth.trans h.depth, h.le.trans h'.le⟩

theorem varintRest_lt {i : ℕ} {res v : UInt64} (h : ctx.varintRest ptr fuel i res = some (ptr', v)) : ptr + i < ptr' := by
  induction fuel generalizing i res with
  | zero => cases h
  | succ fuel ih =>
    rw [varintRest] at h
    split at h
    · cases h
      exact Nat.lt_succ_self _
    · exact Nat.lt_trans (Nat.lt_succ_self _) (ih h)

theorem varintUpTo_lt {n : ℕ} {v : UInt64} (h : ctx.varintUpTo ptr n = some (ptr', v)) : ptr < ptr' := by
  rw [varintUpTo] at h
  split at h
  · cases h
    exact Nat.lt_succ_self _
  · exact Nat.lt_trans (Nat.lt_succ_self _) (varintRest_lt h)

theorem readVarint_lt {v : UInt64} (h : ctx.readVarint ptr = some (ptr', v)) : ptr < ptr' := varintUpTo_lt h

theorem readTag_lt (h : ctx.readTag ptr = some (ptr', tag)) : ptr < ptr' := by
  obtain ⟨⟨next, v⟩, hv, heq⟩ := Option.map_eq_some_iff.1 h
  cases heq
  exact varintUpTo_lt hv

/-- A size that is read is in bounds, whatever the bytes are. -/
theorem readSize_le {size : ℕ} (h : ctx.readSize ptr = some (ptr', size)) : ptr < ptr' ∧ size ≤ maxSize := by
  rw [readSize] at h
  split at h
  · cases h
  · next next res htag =>
    split at h
    · cases h
    · next hcheck =>
      cases h
      refine ⟨readTag_lt htag, ?_⟩
      obtain ⟨⟨end', v⟩, hv, heq⟩ := Option.map_eq_some_iff.1 htag
      obtain ⟨bs, hbs, hheld, hlen⟩ := continued_of_varintUpTo hv
      rw [varintUpTo_held hbs hheld hlen (by decide)] at hv
      cases hv
      cases heq
      by_cases hfive : bs.length = 5
      · -- five bytes: the check
        rw [not_and_or, not_or] at hcheck
        rcases hcheck with hne | hok
        · exact absurd (congrArg _ hfive) hne
        · exact Nat.not_lt.1 hok.2
      · -- four bytes at most
        have hlt := ofBase128_lt bs
        have hpow : 128 ^ bs.length ≤ 128 ^ 4 := Nat.pow_le_pow_right (by decide) (by omega)
        rw [UInt64.toNat_toUInt32, UInt64.toNat_ofNat', maxSize, kSlopBytes]
        omega

theorem readString_some {size : ℕ} {s : List UInt8} (h : ctx.readString ptr size = (s, some ptr')) :
    s.length = size ∧ ptr' = ptr + size := by
  rw [readString] at h
  split at h
  · cases h
    exact ⟨bytes_length _, rfl⟩
  · cases h

/-- What a parser of groups stores is of the wire format, and in proportion to what it reads. -/
def StoresAll (child : ParseContext → ℕ → List UInt8 × Option (ℕ × ParseContext)) : Prop :=
  ∀ (ctx : ParseContext) (ptr : ℕ) (fields : List UInt8) (ptr' : ℕ) (ctx' : ParseContext),
    child ctx ptr = (fields, some (ptr', ctx')) →
    Groups maxSize (ctx.depth + 1) fields ∧ Consumed ctx ptr ctx' ptr' ∧ fields.length + 10 * ptr ≤ 10 * ptr'

/-- What is stored of a field: it, with its tag, as the wire format has it. -/
structure Stored (ctx : ParseContext) (ptr : ℕ) (tag : UInt32) (bs : List UInt8) (ctx' : ParseContext) (ptr' : ℕ) : Prop where
  field : ∃ body, bs = toBase128 tag.toNat ++ body ∧ Field maxSize (Groups maxSize ctx.depth) tag.toNat body
  kept : Consumed ctx ptr ctx' ptr'
  length : bs.length + 10 * ptr ≤ 10 * ptr' + 10

theorem toBase128_tag {n : ℕ} (hn : n < 2 ^ 32) : (toBase128 n).length ≤ 5 :=
  toBase128_length (k := 4) (Nat.lt_trans hn (by decide))

theorem parseGroup_stores (hchild : StoresAll child) (hnum : FieldNumber num) (htag : tag.toNat = 8 * num + 3)
    (h : ctx.parseGroup ptr child num = (bs, some (ptr', ctx'))) : Stored ctx ptr tag bs ctx' ptr' := by
  have hlt := hnum.2
  rw [parseGroup] at h
  split at h
  · cases h
  next hpos =>
  rcases hgo : child { ctx with depth := ctx.depth - 1 } ptr with ⟨fields, res⟩
  simp only [hgo] at h
  split at h
  · cases h
  split at h
  · cases h
  obtain ⟨hgroup, hkept, hlen⟩ := hchild _ _ _ _ _ hgo
  cases h
  have hdepth : ctx.depth - 1 + 1 = ctx.depth := Nat.succ_pred_eq_of_ne_zero hpos
  rw [hdepth] at hgroup
  have h3 := toBase128_tag (show 8 * num + 3 < 2 ^ 32 by omega)
  have h4 := toBase128_tag (show 8 * num + 4 < 2 ^ 32 by omega)
  rw [varint_ofNat (by omega), varint_ofNat (by omega), List.append_assoc]
  refine ⟨⟨_, by rw [htag], ?_⟩, ⟨hkept.data, hkept.limit, ?_, hkept.le⟩, ?_⟩
  · rw [htag]
    exact .group hnum hgroup
  · exact (congrArg (· + 1) hkept.depth).trans hdepth
  · simp only [List.length_append]
    omega

/-- **Whatever is read, what is stored is a field of the wire format.** -/
theorem fieldParser_stores (hchild : StoresAll child) (h : ctx.fieldParser ptr child tag = (bs, some (ptr', ctx'))) :
    Stored ctx ptr tag bs ctx' ptr' := by
  obtain ⟨num, hnumber⟩ : ∃ num, num = (tag >>> 3).toNat := ⟨_, rfl⟩
  have hdiv : num = tag.toNat / 8 := by
    have h3 : (3 : UInt32).toNat % 32 = 3 := rfl
    rw [hnumber, UInt32.toNat_shiftRight, h3, Nat.shiftRight_eq_div_pow]
  have hmod : ∀ k : UInt32, tag &&& 7 = k → tag.toNat = 8 * num + k.toNat := by
    intro k hk
    have hand := and_seven tag.toNat
    rw [UInt32.ofNat_toNat, hk] at hand
    omega
  have h32 := tag.toNat_lt
  have htag5 := toBase128_tag h32
  rw [fieldParser, ← hnumber] at h
  split at h
  · cases h
  next hne =>
  have hnum : FieldNumber num := ⟨Nat.pos_of_ne_zero hne, by omega⟩
  have hlt := hnum.2
  split at h
  · next htype =>
    have htag : tag.toNat = 8 * num := hmod 0 htype
    split at h
    · cases h
    · next next value hread =>
      cases h
      have hlt' := readVarint_lt hread
      have hten : (toBase128 value.toNat).length ≤ 10 := toBase128_length (k := 9) (Nat.lt_trans value.toNat_lt (by decide))
      rw [varint_ofNat (by omega), varint_base128, ← htag]
      refine ⟨⟨_, rfl, ?_⟩, ⟨rfl, rfl, rfl, Nat.le_of_lt hlt'⟩, ?_⟩
      · rw [htag]
        exact .varint hnum value.toNat_lt
      · rw [List.length_append]
        omega
  split at h
  · next htype =>
    have htag : tag.toNat = 8 * num + 1 := hmod 1 htype
    cases h
    rw [varint_ofNat (by omega), ← htag]
    refine ⟨⟨_, rfl, ?_⟩, ⟨rfl, rfl, rfl, Nat.le_add_right _ _⟩, ?_⟩
    · rw [htag]
      exact .fixed64 hnum (bytes_length 8)
    · rw [List.length_append, bytes_length]
      omega
  split at h
  · next htype =>
    have htag : tag.toNat = 8 * num + 2 := hmod 2 htype
    rw [parseLengthDelimited] at h
    split at h
    · cases h
    · next next size hsize =>
      obtain ⟨hlt', hmax⟩ := readSize_le hsize
      rcases hstring : ctx.readString next size with ⟨s, next'⟩
      rw [hstring] at h
      cases next' with
      | none => cases h
      | some next' =>
        cases h
        obtain ⟨hlen, rfl⟩ := readString_some hstring
        have hmax' : s.length ≤ 2147483631 := hlen.trans_le hmax
        have hfive := toBase128_tag (n := s.length) (by omega)
        rw [bytesField_base128 hlt (by omega), List.append_assoc, ← htag]
        refine ⟨⟨_, rfl, ?_⟩, ⟨rfl, rfl, rfl, by omega⟩, ?_⟩
        · rw [htag]
          exact .delimited hnum hmax'
        · rw [List.length_append, List.length_append]
          omega
  split at h
  · next htype => exact parseGroup_stores hchild hnum (hmod 3 htype) h
  split at h
  · next htype =>
    have htag : tag.toNat = 8 * num + 5 := hmod 5 htype
    cases h
    rw [varint_ofNat (by omega), ← htag]
    refine ⟨⟨_, rfl, ?_⟩, ⟨rfl, rfl, rfl, Nat.le_add_right _ _⟩, ?_⟩
    · rw [htag]
      exact .fixed32 hnum (bytes_length 4)
    · rw [List.length_append, bytes_length]
      omega
  · cases h

theorem endOfStream_kept {b : Bool} (h : ctx.endOfStream ptr = some (b, ctx')) : Consumed ctx ptr ctx' ptr := by
  rw [endOfStream] at h
  split at h
  · cases h
  · cases h
    exact ⟨rfl, rfl, rfl, Nat.le_refl _⟩

/-- `done` leaves the parse where it is. -/
theorem done_kept {b : Bool} (h : ctx.done ptr = some (b, ctx')) : Consumed ctx ptr ctx' ptr := by
  have hself : Consumed ctx ptr ctx ptr := ⟨rfl, rfl, rfl, Nat.le_refl _⟩
  rw [done] at h
  split at h
  · cases h
    exact hself
  split at h
  · cases h
    exact hself
  split at h
  · cases h
  split at h
  · exact endOfStream_kept h
  dsimp only at h
  split at h
  · cases h
    exact ⟨rfl, rfl, rfl, Nat.le_refl _⟩
  · have hkept := endOfStream_kept h
    exact ⟨hkept.data, hkept.limit, hkept.depth, hkept.le⟩

theorem wireFormatParser_stores : ∀ fuel : ℕ, StoresAll (wireFormatParser fuel) := by
  intro fuel
  induction fuel with
  | zero =>
    intro ctx ptr fields ptr' ctx' h
    cases h
  | succ fuel ih =>
    intro ctx ptr fields ptr' ctx' h
    rw [wireFormatParser] at h
    split at h
    · cases h
    · next hdone =>
      cases h
      exact ⟨.nil, done_kept hdone, by simp⟩
    next ctx₁ hdone =>
    have hkept := done_kept hdone
    split at h
    · cases h
    next ptr₁ tag htag =>
    have hlt := readTag_lt htag
    split at h
    · cases h
      exact ⟨.nil, ⟨hkept.data, hkept.limit, hkept.depth, Nat.le_of_lt hlt⟩, by simp; omega⟩
    split at h
    · cases h
    next field ptr₂ ctx₂ hfield =>
    rcases hgo : wireFormatParser fuel ctx₂ ptr₂ with ⟨rest, res⟩
    rw [hgo] at h
    cases h
    obtain ⟨hrest, hkept₂, hlen₂⟩ := ih _ _ _ _ _ hgo
    obtain ⟨⟨body, rfl, hbody⟩, hkept₁, hlen₁⟩ := fieldParser_stores ih hfield
    have hdepth₁ := hkept.depth
    have hdepth₂ := hkept₁.depth.trans hdepth₁
    rw [hdepth₁] at hbody
    rw [hdepth₂] at hrest
    have hkept' : Consumed ctx ptr ctx₁ ptr₁ := ⟨hkept.data, hkept.limit, hkept.depth, Nat.le_of_lt hlt⟩
    refine ⟨?_, (hkept'.trans hkept₁).trans hkept₂, ?_⟩
    · exact .cons trivial hbody hrest
    · rw [List.length_append]
      omega

theorem unknownFieldParse_stores (h : ctx.unknownFieldParse ptr tag = (bs, some (ptr', ctx'))) :
    Stored ctx ptr tag bs ctx' ptr' :=
  fieldParser_stores (wireFormatParser_stores ctx.rounds) h

end ParseContext

end ZeldaServer
