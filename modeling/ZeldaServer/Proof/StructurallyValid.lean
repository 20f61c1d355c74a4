import ZeldaServer.Proof.Utf8
import ZeldaServer.Spec.StructurallyValid
import Mathlib.Algebra.Group.Nat.Defs
import Mathlib.Data.List.Infix

/-!
# The UTF-8 scanner finds the longest text

The scanner of `structurally_valid.cc`, with its tables and its loops over groups of bytes,
comes to the end of the longest text that the bytes begin with, from every address. So
`IsStructurallyValidUTF8` accepts what is accepted byte by byte.

* `skipBytes_skips`, `skipGroups_skips`, `skipAsciiGroups_skips`: the loops skip ASCII.
* `scanTable_stops`, `backUp_stops`: the scan of the table stops in a character or behind one,
  and goes back to where it begins.
* `scan_longest`: the scanner.
-/

namespace ZeldaServer

open Lib

namespace UTF8Scan

variable {str : List UInt8} {addr fuel src : ℕ} {b : UInt8}

/-! ## Reads -/

theorem read_drop {i : ℕ} {back : List UInt8} (h : str.drop src = back) : read str (src + i) = read back i := by
  unfold read
  rw [← h, List.getElem?_drop]

theorem read_lt {l : List UInt8} {i : ℕ} (h : i < l.length) : ∃ b, read l i = .ok b ∧ l.drop i = b :: l.drop (i + 1) := by
  refine ⟨l[i], ?_, List.drop_eq_getElem_cons h⟩
  unfold read
  rw [List.getElem?_eq_getElem h]

/-- What is so of all entries, as a list is gone through once. -/
theorem entry_of_all {l : List UInt8} {P : UInt8 → UInt8 → Bool} (hl : l.length = 256)
    (hall : (l.zipIdx.all fun p => P (UInt8.ofNat p.2) p.1) = true) (c : UInt8) :
    ∃ e, l[c.toNat]? = some e ∧ P c e = true := by
  have hc : c.toNat < l.length := by
    rw [hl]
    exact c.toNat_lt
  refine ⟨l[c.toNat], List.getElem?_eq_getElem hc, ?_⟩
  have hmem : (l[c.toNat], c.toNat) ∈ l.zipIdx := by
    rw [List.mem_zipIdx_iff_getElem?]
    exact List.getElem?_eq_getElem hc
  have hP := List.all_eq_true.1 hall _ hmem
  rwa [UInt8.ofNat_toNat] at hP

/-- The entry of a byte in the table for ASCII. -/
def fastBit (b : UInt8) : UInt8 := if b < 0x80 then 0 else 1

theorem fastBit_zero : fastBit b = 0 ↔ b < 0x80 := by
  unfold fastBit
  split <;> simp_all

theorem read_fast (b : UInt8) : read utf8acceptnonsurrogatesFast b.toNat = .ok (fastBit b) := by
  obtain ⟨e, he, hb⟩ := entry_of_all (l := utf8acceptnonsurrogatesFast)
    (P := fun b e => decide (e = fastBit b)) (by decide +kernel) (by decide +kernel) b
  unfold read
  rw [he]
  exact congrArg Except.ok (of_decide_eq_true hb)

/-- What a state of the table means. -/
def meaning : ℕ → Option (ℕ × UInt8 × UInt8)
  | 0 => between
  | 1 => some (1, 0x80, 0xBF)
  | 2 => some (2, 0xA0, 0xBF)
  | 3 => some (2, 0x80, 0xBF)
  | 4 => some (3, 0x90, 0xBF)
  | 5 => some (3, 0x80, 0xBF)
  | 6 => some (3, 0x80, 0x8F)
  | 7 => some (2, 0x80, 0x9F)
  | _ => none

/-- What the entry `e` of the state `s` for the byte `c` says. -/
def Entry (s : ℕ) (c e : UInt8) : Prop :=
  if e ≥ kExitIllegalStructure then utf8Step (meaning s) c = none ∧ e ≠ kExitDoAgain
  else e < 9 ∧ utf8Step (meaning s) c = meaning e.toNat ∧
    if s = 0 then e = 0 ∨ c &&& 0xC0 ≠ 0x80 else c &&& 0xC0 = 0x80

instance (s : ℕ) (c e : UInt8) : Decidable (Entry s c e) := by
  unfold Entry
  infer_instance

theorem table_entries : ∀ s : Fin 9, ((utf8acceptnonsurrogates.drop (s.val * 256)).take 256).length = 256 ∧
    (((utf8acceptnonsurrogates.drop (s.val * 256)).take 256).zipIdx.all fun p =>
      decide (Entry s.val (UInt8.ofNat p.2) p.1)) = true := by
  decide +kernel

/-- **The table** steps as the bytes are read. -/
theorem read_table {s : ℕ} (hs : s < 9) (c : UInt8) :
    ∃ e, read utf8acceptnonsurrogates (s * 256 + c.toNat) = .ok e ∧ Entry s c e := by
  obtain ⟨hlength, hall⟩ := table_entries ⟨s, hs⟩
  obtain ⟨e, he, hentry⟩ := entry_of_all (P := fun c e => decide (Entry s c e)) hlength hall c
  rw [List.getElem?_take, if_pos c.toNat_lt, List.getElem?_drop] at he
  unfold read
  rw [he]
  exact ⟨e, rfl, of_decide_eq_true hentry⟩

/-! ## Loops over ASCII -/

/-- From `src` to `src'` there is ASCII. -/
def Skips (str : List UInt8) (src src' : ℕ) : Prop :=
  ∃ mid rest, str.drop src = mid ++ rest ∧ src' = src + mid.length ∧ ∀ b ∈ mid, b < 0x80

theorem Skips.refl : Skips str src src := ⟨[], _, rfl, rfl, by simp⟩

theorem Skips.trans {src₁ src₂ : ℕ} (h : Skips str src src₁) (h' : Skips str src₁ src₂) : Skips str src src₂ := by
  obtain ⟨mid, rest, hdrop, rfl, hmid⟩ := h
  obtain ⟨mid', rest', hdrop', rfl, hmid'⟩ := h'
  have hrest : str.drop (src + mid.length) = rest := by
    rw [← List.drop_drop, hdrop, List.drop_left]
  refine ⟨mid ++ mid', rest', ?_, by rw [List.length_append]; omega, ?_⟩
  · rw [hdrop, ← hrest, hdrop', List.append_assoc]
  · intro b hb
    rcases List.mem_append.1 hb with hb | hb
    · exact hmid b hb
    · exact hmid' b hb

theorem Skips.of_drop (mid : List UInt8) {rest : List UInt8} (hdrop : str.drop src = mid ++ rest)
    (hmid : ∀ b ∈ mid, b < 0x80) : Skips str src (src + mid.length) := ⟨mid, rest, hdrop, rfl, hmid⟩

/-- What `passes` lets pass is ASCII. -/
def PassesAscii (str : List UInt8) (passes : ℕ → Outcome Bool) : Prop :=
  ∀ src b, str.drop src = b :: str.drop (src + 1) → ∃ r, passes src = .ok r ∧ (r = true → b < 0x80)

theorem skipBytes_skips {align : Bool} {passes : ℕ → Outcome Bool} (hpasses : PassesAscii str passes)
    (hfuel : str.length - src < fuel) : Returns (skipBytes addr str align passes fuel src) (Skips str src) := by
  induction fuel generalizing src with
  | zero => omega
  | succ fuel ih =>
    unfold skipBytes
    split
    · exact .ok .refl
    split
    · rename_i hlt
      obtain ⟨b, -, hdrop⟩ := read_lt hlt
      obtain ⟨r, hr, hascii⟩ := hpasses src b hdrop
      rw [hr, ok_bind]
      cases r with
      | false => exact .ok .refl
      | true =>
        have hone : Skips str src (src + 1) := .of_drop [b] hdrop (by simp [hascii rfl])
        exact (ih (by omega)).imp fun src' h => hone.trans h
    · exact .ok .refl

theorem isAscii_passes : PassesAscii str (isAscii str) := by
  intro src b hdrop
  refine ⟨decide (b < 0x80), ?_, of_decide_eq_true⟩
  unfold isAscii
  rw [show read str src = .ok b from read_drop (i := 0) hdrop]
  rfl

/-- The entry of an ASCII byte is 0. -/
theorem fastEntry_eq {back : List UInt8} {i : ℕ} (hdrop : str.drop src = back) (hb : back[i]? = some b) :
    fastEntry utf8acceptnonsurrogatesObj str (src + i) = .ok (fastBit b) := by
  unfold fastEntry
  rw [read_drop hdrop]
  unfold read
  rw [hb]
  exact read_fast b

theorem fastEntry_passes :
    PassesAscii str (fun src => do .ok (decide ((← fastEntry utf8acceptnonsurrogatesObj str src) = 0))) := by
  intro src b hdrop
  refine ⟨decide (b < 0x80), ?_, of_decide_eq_true⟩
  dsimp only
  rw [show fastEntry utf8acceptnonsurrogatesObj str src = .ok (fastBit b) from fastEntry_eq (i := 0) hdrop rfl]
  simp [fastBit_zero]

/-! ## Groups of bytes -/

/-- The word of four bytes. -/
def word (b0 b1 b2 b3 : UInt8) : UInt32 :=
  b0.toUInt32 ||| b1.toUInt32 <<< 8 ||| b2.toUInt32 <<< 16 ||| b3.toUInt32 <<< 24

theorem load_eq {b0 b1 b2 b3 : UInt8} {rest : List UInt8} (h : str.drop src = b0 :: b1 :: b2 :: b3 :: rest) :
    load str src = .ok (word b0 b1 b2 b3) := by
  unfold load
  rw [show read str src = _ from read_drop (i := 0) h, read_drop h, read_drop h, read_drop h]
  rfl

theorem ascii_of_bit (h : b.toBitVec[7] = false) : b < 0x80 := by
  have hlt := BitVec.msb_eq_false_iff_two_mul_lt.1 (show b.toBitVec.msb = false from h)
  rw [UInt8.lt_iff_toNat_lt]
  show b.toBitVec.toNat < 128
  omega

/-- The high bits of a word are those of its bytes. -/
theorem word_ascii {b0 b1 b2 b3 : UInt8} (h : word b0 b1 b2 b3 &&& 0x80808080 = 0) :
    ∀ b ∈ [b0, b1, b2, b3], b < 0x80 := by
  have hbit : ∀ i, (word b0 b1 b2 b3 &&& 0x80808080).toBitVec.getLsbD i = false := by
    intro i
    rw [h]
    simp
  have h0 := hbit 7
  have h1 := hbit 15
  have h2 := hbit 23
  have h3 := hbit 31
  simp [word] at h0 h1 h2 h3
  simp [ascii_of_bit h0, ascii_of_bit h1, ascii_of_bit h2, ascii_of_bit h3]

/-- A group of 8 bytes. -/
theorem exists_group (h : src < srclimit8 str) :
    ∃ b0 b1 b2 b3 b4 b5 b6 b7 rest, str.drop src = b0 :: b1 :: b2 :: b3 :: b4 :: b5 :: b6 :: b7 :: rest := by
  have hlength : 8 ≤ (str.drop src).length := by
    unfold srclimit8 at h
    rw [List.length_drop]
    split at h <;> omega
  generalize str.drop src = l at hlength ⊢
  rcases l with _ | ⟨b0, _ | ⟨b1, _ | ⟨b2, _ | ⟨b3, _ | ⟨b4, _ | ⟨b5, _ | ⟨b6, _ | ⟨b7, rest⟩⟩⟩⟩⟩⟩⟩⟩
  case cons.cons.cons.cons.cons.cons.cons.cons => exact ⟨b0, b1, b2, b3, b4, b5, b6, b7, rest, rfl⟩
  all_goals simp at hlength

/-- The words of a group. -/
theorem load_group {b0 b1 b2 b3 b4 b5 b6 b7 : UInt8} {rest : List UInt8}
    (h : str.drop src = b0 :: b1 :: b2 :: b3 :: b4 :: b5 :: b6 :: b7 :: rest) :
    load str src = .ok (word b0 b1 b2 b3) ∧ load str (src + 4) = .ok (word b4 b5 b6 b7) := by
  have hlater : str.drop (src + 4) = b4 :: b5 :: b6 :: b7 :: rest := by
    rw [← List.drop_drop, h]
    rfl
  exact ⟨load_eq h, load_eq hlater⟩

theorem or_high {x y mask : UInt32} : (x ||| y) &&& mask = 0 ↔ x &&& mask = 0 ∧ y &&& mask = 0 := by
  have hor : (x ||| y) &&& mask = (x &&& mask) ||| (y &&& mask) := by
    apply UInt32.toBitVec_inj.1
    ext i
    simp [Bool.and_or_distrib_right]
  rw [hor, UInt32.or_eq_zero_iff]

/-- A group that is ASCII is skipped. -/
theorem group_skips {b0 b1 b2 b3 b4 b5 b6 b7 : UInt8} {rest : List UInt8}
    (h : str.drop src = b0 :: b1 :: b2 :: b3 :: b4 :: b5 :: b6 :: b7 :: rest) (hfirst : ∀ b ∈ [b0, b1, b2, b3], b < 0x80)
    (hlast : ∀ b ∈ [b4, b5, b6, b7], b < 0x80) : Skips str src (src + 8) := by
  refine .of_drop [b0, b1, b2, b3, b4, b5, b6, b7] h fun b hb => ?_
  rcases List.mem_append.1 (show b ∈ [b0, b1, b2, b3] ++ [b4, b5, b6, b7] from hb) with hb | hb
  · exact hfirst b hb
  · exact hlast b hb

theorem skipAsciiGroups_skips (hfuel : str.length - src < fuel) :
    Returns (skipAsciiGroups str fuel src) (Skips str src) := by
  induction fuel generalizing src with
  | zero => omega
  | succ fuel ih =>
    unfold skipAsciiGroups
    split
    · rename_i hlt
      obtain ⟨b0, b1, b2, b3, b4, b5, b6, b7, rest, hdrop⟩ := exists_group hlt
      obtain ⟨hload, hload'⟩ := load_group hdrop
      rw [hload, ok_bind, hload', ok_bind]
      split
      · rename_i hzero
        rw [or_high] at hzero
        refine (ih ?_).imp fun src' h => (group_skips hdrop (word_ascii hzero.1) (word_ascii hzero.2)).trans h
        unfold srclimit8 at hlt
        split at hlt <;> omega
      · exact .ok .refl
    · exact .ok .refl

theorem fastEntries_eq {b0 b1 b2 b3 : UInt8} {rest : List UInt8} (h : str.drop src = b0 :: b1 :: b2 :: b3 :: rest) :
    fastEntries utf8acceptnonsurrogatesObj str src = .ok ((fastBit b0 ||| fastBit b1) ||| (fastBit b2 ||| fastBit b3)) := by
  unfold fastEntries
  rw [show fastEntry utf8acceptnonsurrogatesObj str src = .ok (fastBit b0) from fastEntry_eq (i := 0) h rfl, fastEntry_eq h rfl,
    fastEntry_eq h rfl, fastEntry_eq h rfl]
  rfl

theorem fastBits_zero {b0 b1 b2 b3 : UInt8} (h : (fastBit b0 ||| fastBit b1) ||| (fastBit b2 ||| fastBit b3) = 0) :
    ∀ b ∈ [b0, b1, b2, b3], b < 0x80 := by
  simp only [UInt8.or_eq_zero_iff, fastBit_zero] at h
  simp [h]

theorem skipGroups_skips (hfuel : str.length - src < fuel) :
    Returns (skipGroups utf8acceptnonsurrogatesObj str fuel src) (Skips str src) := by
  induction fuel generalizing src with
  | zero => omega
  | succ fuel ih =>
    unfold skipGroups
    split
    · rename_i hlt
      obtain ⟨b0, b1, b2, b3, b4, b5, b6, b7, rest, hdrop⟩ := exists_group hlt
      obtain ⟨hload, hload'⟩ := load_group hdrop
      have hgo : Skips str src (src + 8) →
          Returns (skipGroups utf8acceptnonsurrogatesObj str fuel (src + 8)) (Skips str src) := by
        intro hgroup
        refine (ih ?_).imp fun src' h => hgroup.trans h
        unfold srclimit8 at hlt
        split at hlt <;> omega
      rw [hload, ok_bind, hload', ok_bind]
      dsimp only
      split
      · -- the table decides
        have hlater : str.drop (src + 4) = b4 :: b5 :: b6 :: b7 :: rest := by
          rw [← List.drop_drop, hdrop]
          rfl
        rw [fastEntries_eq hdrop, ok_bind]
        split
        · exact .ok .refl
        rename_i hfirst
        have hfirst := fastBits_zero (not_not.1 hfirst)
        rw [fastEntries_eq hlater, ok_bind]
        split
        · exact .ok (.of_drop [b0, b1, b2, b3] hdrop hfirst)
        · rename_i hlast
          exact hgo (group_skips hdrop hfirst (fastBits_zero (not_not.1 hlast)))
      · -- no byte has its high bit
        rename_i hzero
        rw [not_not, or_high, or_high, or_high] at hzero
        obtain ⟨⟨⟨-, hfirst⟩, -⟩, hlast⟩ := hzero
        have hhiadd : ∀ x : UInt32, x + utf8acceptnonsurrogatesObj.hiadd = x := fun x => UInt32.add_zero x
        rw [hhiadd] at hfirst hlast
        exact hgo (group_skips hdrop (word_ascii hfirst) (word_ascii hlast))
    · exact .ok .refl

/-! ## The scan of the table -/

/-- The bytes of a character that are read in the state `s`. -/
structure Partial (part : List UInt8) (s : ℕ) : Prop where
  lt : s < 9
  state : part.foldl utf8Step between = meaning s
  zero : s = 0 → part = []
  lead : ∀ a ∈ part.head?, a &&& 0xC0 ≠ 0x80
  follows : ∀ b ∈ part.tail, b &&& 0xC0 = 0x80
  inside : ∀ p, p <+: part → p ≠ [] → p.foldl utf8Step between ≠ between

/-- The scan has read the text `text`, and `part` of the character behind it. -/
structure Scanned (str text part rest : List UInt8) (s : ℕ) : Prop where
  str : str = text ++ part ++ rest
  text : text.foldl utf8Step between = between
  part : Partial part s

variable {text part rest : List UInt8} {s : ℕ} {c e : UInt8}

theorem Partial.nil : Partial [] 0 where
  lt := by decide
  state := rfl
  zero := fun _ => rfl
  lead := by simp
  follows := by simp
  inside := fun p hp hne => absurd (List.prefix_nil.1 hp) hne

theorem meaning_between (hs : s < 9) (h : meaning s = between) : s = 0 := by
  have hall : ∀ s : Fin 9, meaning s = between → s.val = 0 := by decide
  exact hall ⟨s, hs⟩ h

/-- A byte that goes on with the character. -/
theorem Partial.snoc (h : Partial part s) (hentry : Entry s c e) (he : ¬ e ≥ kExitIllegalStructure) (hne : e ≠ 0) :
    Partial (part ++ [c]) e.toNat := by
  unfold Entry at hentry
  rw [if_neg he] at hentry
  obtain ⟨hlt, hstep, hbyte⟩ := hentry
  have hstate : (part ++ [c]).foldl utf8Step between = meaning e.toNat := by
    rw [List.foldl_append, h.state, List.foldl_cons, List.foldl_nil, hstep]
  have hnonzero : e.toNat ≠ 0 := fun hzero => hne (UInt8.toNat_inj.1 hzero)
  refine ⟨UInt8.lt_iff_toNat_lt.1 hlt, hstate, fun hzero => absurd hzero hnonzero, ?_, ?_, ?_⟩
  · intro a ha
    cases part with
    | nil =>
      obtain rfl : c = a := by simpa using ha
      have hs : s = 0 := meaning_between h.lt h.state.symm
      rw [if_pos hs] at hbyte
      exact hbyte.resolve_left hne
    | cons a' part =>
      exact h.lead a (by simpa using ha)
  · intro b hb
    cases part with
    | nil => simp at hb
    | cons a' part =>
      rcases List.mem_append.1 (show b ∈ part ++ [c] from hb) with hb | hb
      · exact h.follows b hb
      · rw [List.mem_singleton.1 hb]
        rwa [if_neg fun hs => by simpa using h.zero hs] at hbyte
  · intro p hp hp'
    rcases List.prefix_concat_iff.1 hp with rfl | hp
    · rw [hstate]
      exact fun hbetween => hnonzero (meaning_between (UInt8.lt_iff_toNat_lt.1 hlt) hbetween)
    · exact h.inside p hp hp'

/-- One byte is scanned. -/
theorem Scanned.step (h : Scanned str text part (c :: rest) s) (hentry : Entry s c e) (he : ¬ e ≥ kExitIllegalStructure) :
    ∃ text' part', Scanned str text' part' rest e.toNat ∧ text' ++ part' = text ++ part ++ [c] := by
  by_cases hzero : e = 0
  · -- the character is complete
    refine ⟨text ++ part ++ [c], [], ⟨?_, ?_, ?_⟩, List.append_nil _⟩
    · rw [h.str, List.append_nil, List.append_assoc _ [c]]
      rfl
    · unfold Entry at hentry
      rw [if_neg he] at hentry
      rw [List.foldl_append, List.foldl_append, h.text, h.part.state, List.foldl_cons, List.foldl_nil, hentry.2.1, hzero]
      rfl
    · rw [hzero]
      exact .nil
  · refine ⟨text, part ++ [c], ⟨?_, h.text, h.part.snoc hentry he hzero⟩, (List.append_assoc _ _ _).symm⟩
    rw [h.str, ← List.append_assoc, List.append_assoc _ [c]]
    rfl

/-- How the scan of the table ends: at a byte that cannot follow, or at the end. -/
def Stops (str : List UInt8) (r : ℕ × ℕ × UInt8) : Prop :=
  ∃ text part rest s, Scanned str text part rest s ∧ r.2.1 = s * 256 ∧
    (r.2.2 ≥ kExitIllegalStructure ∧ r.2.2 ≠ kExitDoAgain ∧ r.1 = (text ++ part).length + 1 ∧
        (∃ c rest', rest = c :: rest' ∧ utf8Step (meaning s) c = none) ∨
      ¬ r.2.2 ≥ kExitIllegalStructure ∧ r.1 = (text ++ part).length ∧ rest = [])

theorem scanTable_stops (h : Scanned str text part rest s) (he : ¬ e ≥ kExitIllegalStructure) (hfuel : rest.length < fuel) :
    Returns (scanTable utf8acceptnonsurrogatesObj str fuel (text ++ part).length (s * 256) e) (Stops str) := by
  induction rest generalizing fuel text part s e with
  | nil =>
    cases fuel with
    | zero => exact absurd hfuel (Nat.not_lt_zero _)
    | succ fuel =>
      have hend : ¬ (text ++ part).length < str.length := by
        rw [h.str, List.append_nil]
        exact Nat.lt_irrefl _
      unfold scanTable
      rw [if_neg hend]
      exact .ok ⟨text, part, [], s, h, rfl, .inr ⟨he, rfl, rfl⟩⟩
  | cons c rest ih =>
    cases fuel with
    | zero => exact absurd hfuel (Nat.not_lt_zero _)
    | succ fuel =>
      have hlt : (text ++ part).length < str.length := by
        simp [h.str]
      have hdrop : str.drop (text ++ part).length = c :: rest := by
        rw [h.str, List.drop_left]
      obtain ⟨e', he', hentry⟩ := read_table h.part.lt c
      unfold scanTable
      rw [if_pos hlt, show read str (text ++ part).length = .ok c from read_drop (i := 0) hdrop, ok_bind,
        show read utf8acceptnonsurrogatesObj.stateTable (s * 256 + c.toNat) = .ok e' from he', ok_bind]
      split
      · rename_i hexit
        unfold Entry at hentry
        rw [if_pos hexit] at hentry
        exact .ok ⟨text, part, c :: rest, s, h, rfl, .inl ⟨hexit, hentry.2, rfl, c, rest, rfl, hentry.1⟩⟩
      · rename_i hnext
        obtain ⟨text', part', hscanned, heq⟩ := h.step hentry hnext
        have hnextTbl : utf8acceptnonsurrogatesObj.state0.toNat + e'.toNat <<< utf8acceptnonsurrogatesObj.entryShift =
            e'.toNat * 256 := by
          rw [Nat.shiftLeft_eq]
          exact Nat.zero_add _
        have hlength : (text ++ part).length + 1 = (text' ++ part').length := by
          simp [heq, Nat.add_assoc]
        rw [hnextTbl, hlength]
        exact ih hscanned hnext (by simpa using hfuel)

/-- **Backing up** over a character that is not complete. -/
theorem backUp_stops {a : UInt8} {follows : List UInt8} (hstr : str = text ++ (a :: follows) ++ rest) (ha : a &&& 0xC0 ≠ 0x80)
    (hfollows : ∀ b ∈ follows, b &&& 0xC0 = 0x80) : backUp str (text.length + follows.length + 1) = .ok text.length := by
  induction follows using List.reverseRecOn generalizing rest with
  | nil =>
    unfold backUp
    rw [List.length_nil, Nat.add_zero]
    split
    · have hdrop : str.drop text.length = a :: rest := by
        rw [hstr, List.append_assoc, List.drop_left]
        rfl
      rw [show read str text.length = .ok a from read_drop (i := 0) hdrop, ok_bind, if_neg ha]
    · rfl
  | append_singleton follows b ih =>
    have hsplit : str = text ++ (a :: follows) ++ b :: rest := by
      rw [hstr]
      simp
    have hdrop : str.drop (text.length + (follows ++ [b]).length) = b :: rest := by
      have hlength : text.length + (follows ++ [b]).length = (text ++ a :: follows).length := by simp
      rw [hlength, hsplit, List.drop_left]
    have hpos : 0 < text.length + (follows ++ [b]).length := Nat.add_pos_right _ (by simp)
    unfold backUp
    rw [if_pos hpos, show read str (text.length + (follows ++ [b]).length) = .ok b from read_drop (i := 0) hdrop,
      ok_bind, if_pos (hfollows b (by simp)), List.length_append, ← Nat.add_assoc]
    exact ih hsplit fun b' hb' => hfollows b' (List.mem_append_left _ hb')

/-! ## The scanner -/

/-- The text that the bytes begin with ends at `n`, and no text that is longer does. -/
def Ends (str : List UInt8) (n : ℕ) : Prop :=
  ∃ text rest, str = text ++ rest ∧ n = text.length ∧ Utf8 text ∧ ∀ p, p <+: rest → p ≠ [] → ¬ Utf8 p

/-- Behind the text there is no character. -/
theorem Scanned.ends (h : Scanned str text part rest s)
    (hrest : rest = [] ∨ ∃ c rest', rest = c :: rest' ∧ utf8Step (meaning s) c = none) : Ends str text.length := by
  refine ⟨text, part ++ rest, by rw [h.str, List.append_assoc], rfl, utf8_run.1 h.text, fun p hp hne hutf8 => ?_⟩
  rw [← utf8_run] at hutf8
  obtain ⟨tail, htail⟩ := hp
  rcases List.append_eq_append_iff.1 htail with ⟨q, hq, -⟩ | ⟨q, rfl, hq⟩
  · exact h.part.inside p ⟨q, hq.symm⟩ hne hutf8
  · cases q with
    | nil =>
      rw [List.append_nil] at hutf8 hne
      exact h.part.inside part (List.prefix_refl _) hne hutf8
    | cons c' q =>
      rcases hrest with rfl | ⟨c, rest', rfl, hnone⟩
      · cases hq
      · obtain rfl : c = c' := (List.cons.inj hq).1
        rw [List.foldl_append, h.part.state, List.foldl_cons, hnone, utf8_none] at hutf8
        cases hutf8

theorem inStateZero_iff (hs : s < 9) : inStateZero utf8acceptnonsurrogatesObj (s * 256) = true ↔ s = 0 := by
  have hall : ∀ s : Fin 9, inStateZero utf8acceptnonsurrogatesObj (s.val * 256) = true ↔ s.val = 0 := by decide
  exact hall ⟨s, hs⟩

/-- Where the scan of the table stops, the text has ended. -/
theorem exitFrom_ends {r : ℕ × ℕ × UInt8} (h : Stops str r) :
    Returns (exitFrom utf8acceptnonsurrogatesObj str r.1 r.2.1 r.2.2) fun (e, n) => e ≠ kExitDoAgain ∧ Ends str n := by
  obtain ⟨text, part, rest, s, hscanned, htbl, hends⟩ := h
  have hback : s ≠ 0 → backUp str (text ++ part).length = .ok text.length := by
    intro hs
    cases hpart : part with
    | nil => exact absurd (meaning_between hscanned.part.lt (by rw [← hscanned.part.state, hpart]; rfl)) hs
    | cons a follows =>
      have hp := hscanned.part
      have hstr := hscanned.str
      rw [hpart] at hp hstr
      have hlength : (text ++ a :: follows).length = text.length + follows.length + 1 := by simp [Nat.add_assoc]
      rw [hlength]
      exact backUp_stops hstr (hp.lead a rfl) hp.follows
  have hwhole : s = 0 → (text ++ part).length = text.length := by
    intro hs
    rw [hscanned.part.zero hs, List.append_nil]
  unfold exitFrom
  rw [htbl]
  rcases hends with ⟨hexit, hagain, hsrc, hrest⟩ | ⟨hexit, hsrc, hrest⟩
  · rw [if_pos hexit, hsrc, Nat.add_sub_cancel]
    dsimp only
    split
    · rename_i hzero
      rw [hwhole ((inStateZero_iff hscanned.part.lt).1 hzero)]
      exact .ok ⟨hagain, hscanned.ends (.inr hrest)⟩
    · rename_i hzero
      rw [hback fun hs => hzero ((inStateZero_iff hscanned.part.lt).2 hs)]
      exact .ok ⟨hagain, hscanned.ends (.inr hrest)⟩
  · rw [if_neg hexit, hsrc]
    split
    · rename_i hzero
      rw [hwhole ((inStateZero_iff hscanned.part.lt).1 hzero)]
      exact .ok ⟨by decide, hscanned.ends (.inl hrest)⟩
    · rename_i hzero
      rw [hback fun hs => hzero ((inStateZero_iff hscanned.part.lt).2 hs)]
      exact .ok ⟨by decide, hscanned.ends (.inl hrest)⟩

/-- What has been skipped is a text. -/
theorem Skips.scanned (h : Skips str 0 src) :
    ∃ text rest, Scanned str text [] rest 0 ∧ src = text.length ∧ str.length = src + rest.length ∧ str.drop src = rest := by
  obtain ⟨text, rest, hdrop, rfl, hascii⟩ := h
  rw [List.drop_zero] at hdrop
  refine ⟨text, rest, ⟨?_, utf8_run.2 (ascii_utf8 hascii), .nil⟩, Nat.zero_add _, ?_, ?_⟩
  · rw [hdrop, List.append_nil]
  · rw [hdrop, List.length_append, Nat.zero_add]
  · rw [hdrop, Nat.zero_add, List.drop_left]

/-- A loop over groups of bytes, if the pointer is aligned. -/
theorem ifAligned_skips {groups : ℕ → Outcome ℕ} {src' : ℕ} (h : Skips str src src')
    (hgroups : Returns (groups src') (Skips str src')) : Returns (ifAligned addr groups src') (Skips str src) := by
  unfold ifAligned
  split
  · exact hgroups.imp fun src'' h' => h.trans h'
  · exact .ok h

/-- **`UTF8GenericScan`** comes to the end of the text. -/
theorem genericScan_ends (addr : ℕ) (hfuel : str.length < fuel) :
    Returns (utf8GenericScan utf8acceptnonsurrogatesObj addr str fuel) fun (e, n) => e ≠ kExitDoAgain ∧ Ends str n := by
  unfold utf8GenericScan
  split
  · rename_i hnil
    obtain rfl := List.length_eq_zero_iff.1 hnil
    exact .ok ⟨by decide, [], [], rfl, rfl, utf8_nil, fun p hp hne => absurd (List.prefix_nil.1 hp) hne⟩
  obtain ⟨n, rfl⟩ : ∃ n, fuel = n + 1 := ⟨fuel - 1, by omega⟩
  unfold doAgain
  refine (skipBytes_skips fastEntry_passes (by omega)).bind fun src₁ h₁ => ?_
  refine (ifAligned_skips h₁ (skipGroups_skips (show str.length - src₁ < n + 1 by omega))).bind fun src₂ h₂ => ?_
  obtain ⟨text, rest, hscanned, rfl, hlength, -⟩ := h₂.scanned
  have hscan := scanTable_stops (e := 0) hscanned (by decide) (show rest.length < n + 1 by omega)
  rw [List.append_nil] at hscan
  refine hscan.bind fun r hr => ?_
  refine (exitFrom_ends hr).bind fun (e, m) hends => ?_
  dsimp only
  rw [if_neg hends.1]
  exact .ok hends

/-- **`UTF8GenericScanFastAscii`** does, too. -/
theorem fastAscii_ends (addr : ℕ) (hfuel : str.length < fuel) :
    Returns (utf8GenericScanFastAscii utf8acceptnonsurrogatesObj addr str fuel) fun (_, n) => Ends str n := by
  unfold utf8GenericScanFastAscii
  split
  · rename_i hnil
    obtain rfl := List.length_eq_zero_iff.1 hnil
    exact .ok ⟨[], [], rfl, rfl, utf8_nil, fun p hp hne => absurd (List.prefix_nil.1 hp) hne⟩
  obtain ⟨n, rfl⟩ : ∃ n, fuel = n + 1 := ⟨fuel - 1, by omega⟩
  unfold fastAscii
  refine (skipBytes_skips isAscii_passes (by omega)).bind fun src₁ h₁ => ?_
  refine (ifAligned_skips h₁ (skipAsciiGroups_skips (show str.length - src₁ < n + 1 by omega))).bind fun src₂ h₂ => ?_
  refine (skipBytes_skips isAscii_passes (show str.length - src₂ < n + 1 by omega)).bind fun src₃ h₃ => ?_
  obtain ⟨text, rest, hscanned, rfl, hlength, hdrop⟩ := (h₂.trans h₃).scanned
  rw [hdrop]
  refine (genericScan_ends _ (show rest.length < n + 1 by omega)).bind fun (e, m) hends => ?_
  dsimp only
  rw [if_neg hends.1]
  -- the text goes on behind the ASCII
  obtain ⟨-, text', rest', rfl, rfl, htext', hrest'⟩ := hends
  refine .ok ⟨text ++ text', rest', ?_, (List.length_append).symm, (utf8_run.1 hscanned.text).append htext', hrest'⟩
  rw [hscanned.str, List.append_nil, List.append_assoc]

/-- No text that the bytes begin with is longer. -/
theorem Ends.longest {n : ℕ} (h : Ends str n) :
    n ≤ str.length ∧ Utf8 (str.take n) ∧ ∀ m, Utf8 (str.take m) → m ≤ str.length → m ≤ n := by
  obtain ⟨text, rest, rfl, rfl, htext, hrest⟩ := h
  refine ⟨by simp, by rwa [List.take_left], fun m hm hle => ?_⟩
  by_contra hlong
  have hsplit : (text ++ rest).take m = text ++ rest.take (m - text.length) := by
    rw [List.take_append, List.take_of_length_le (by omega)]
  have hpart : Utf8 (rest.take (m - text.length)) := by
    rw [hsplit, ← utf8_run, List.foldl_append, utf8_run.2 htext] at hm
    exact utf8_run.1 hm
  refine hrest _ (List.take_prefix _ _) (fun hnil => ?_) hpart
  rw [List.length_append] at hle
  rcases List.take_eq_nil_iff.1 hnil with hzero | rfl
  · omega
  · rw [List.length_nil] at hle
    omega

/-- **The scanner finds the longest text.** Wherever the bytes are in memory, as many as an
`int` can count, the scanner returns, and has read all its bytes and entries inside of their
arrays: `UTF8SpnStructurallyValid` is the length of the longest text in UTF-8 that the bytes
begin with, and `IsStructurallyValidUTF8` says of all bytes what is found byte by byte: whether
they are such a text. -/
theorem scan_longest (addr : ℕ) (str : List UInt8) (_ : str.length < 2 ^ 31) (hfuel : str.length < fuel) :
    (∃ n, utf8SpnStructurallyValid addr str fuel = .ok n ∧ n ≤ str.length ∧ Utf8 (str.take n) ∧
      ∀ m, Utf8 (str.take m) → m ≤ str.length → m ≤ n) ∧
    isStructurallyValidUTF8 addr str fuel = .ok (ZeldaServer.isStructurallyValidUTF8 str) ∧
    (ZeldaServer.isStructurallyValidUTF8 str = true ↔ Utf8 str) := by
  obtain ⟨⟨e, n⟩, hscan, hends⟩ := returns_iff.1 (fastAscii_ends addr hfuel)
  obtain ⟨hle, htext, hlongest⟩ := hends.longest
  refine ⟨⟨n, ?_, hle, htext, hlongest⟩, ?_, valid_iff str⟩
  · unfold utf8SpnStructurallyValid
    rw [hscan]
    rfl
  · unfold isStructurallyValidUTF8
    rw [hscan, ok_bind]
    have hvalid : (n = str.length) ↔ ZeldaServer.isStructurallyValidUTF8 str = true := by
      rw [valid_iff]
      constructor
      · rintro rfl
        rwa [List.take_length] at htext
      · intro h
        exact Nat.le_antisymm hle (hlongest str.length (by rwa [List.take_length]) (Nat.le_refl _))
    exact congrArg Except.ok (by simp [hvalid])

/-- `A`, U+0800 and the first two bytes of a surrogate, at an odd address. -/
theorem scan_longest_surrogate :
    utf8SpnStructurallyValid 13 [0x41, 0xE0, 0xA0, 0x80, 0xED, 0xA0] 7 = .ok 4 ∧
      Utf8 ([0x41, 0xE0, 0xA0, 0x80, 0xED, 0xA0].take 4) ∧ ¬ Utf8 [0x41, 0xE0, 0xA0, 0x80, 0xED, 0xA0] := by
  obtain ⟨⟨n, hn, -, htext, -⟩, -, hvalid⟩ :=
    scan_longest 13 [0x41, 0xE0, 0xA0, 0x80, 0xED, 0xA0] (by decide) (show _ < 7 by decide)
  have hfour : utf8SpnStructurallyValid 13 [0x41, 0xE0, 0xA0, 0x80, 0xED, 0xA0] 7 = .ok 4 := by decide +kernel
  rw [hfour] at hn
  obtain rfl := Except.ok.inj hn
  refine ⟨hfour, htext, ?_⟩
  rw [← hvalid]
  decide

end UTF8Scan

end ZeldaServer
