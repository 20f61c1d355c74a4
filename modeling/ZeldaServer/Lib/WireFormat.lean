import ZeldaServer.Lib.Base128

/-!
# Fields of the wire format

A message is a sequence of fields: a tag, which says the number of the field and the type of
what follows, and then a number, bytes of a fixed count, bytes behind their length, or a group
of fields up to the tag that ends it.

* `Fields.append`: fields after fields.
* `Field.tag_lt`, `Field.not_end`: a tag fits into 32 bits, and does not end a group.
-/

namespace Lib

/-- The number of a field: a tag has 32 bits, three of them for the type. -/
def FieldNumber (num : ℕ) : Prop := 0 < num ∧ num < 2 ^ 29

instance decidableFieldNumber (num : ℕ) : Decidable (FieldNumber num) := inferInstanceAs (Decidable (0 < num ∧ num < 2 ^ 29))

/-- The tag of a field and the bytes behind it. At most `maxSize` bytes follow a length, and a
group contains what is a `group`. -/
inductive Field (maxSize : ℕ) (group : List UInt8 → Prop) : ℕ → List UInt8 → Prop
  | varint {num value : ℕ} : FieldNumber num → value < 2 ^ 64 → Field maxSize group (8 * num) (toBase128 value)
  | fixed64 {num : ℕ} {bytes : List UInt8} : FieldNumber num → bytes.length = 8 →
      Field maxSize group (8 * num + 1) bytes
  | delimited {num : ℕ} {bytes : List UInt8} : FieldNumber num → bytes.length ≤ maxSize →
      Field maxSize group (8 * num + 2) (toBase128 bytes.length ++ bytes)
  | group {num : ℕ} {fields : List UInt8} : FieldNumber num → group fields →
      Field maxSize group (8 * num + 3) (fields ++ toBase128 (8 * num + 4))
  | fixed32 {num : ℕ} {bytes : List UInt8} : FieldNumber num → bytes.length = 4 →
      Field maxSize group (8 * num + 5) bytes

/-- Fields one after the other, with tags that are `ok`. -/
inductive FieldSeq (field : ℕ → List UInt8 → Prop) (ok : ℕ → Prop) : List UInt8 → Prop
  | nil : FieldSeq field ok []
  | cons {tag : ℕ} {body rest : List UInt8} : ok tag → field tag body → FieldSeq field ok rest →
      FieldSeq field ok (toBase128 tag ++ body ++ rest)

/-- What a group can contain if groups are nested at most this deep. -/
def Groups (maxSize : ℕ) : ℕ → List UInt8 → Prop
  | 0 => fun _ => False
  | depth + 1 => FieldSeq (Field maxSize (Groups maxSize depth)) fun _ => True

/-- Fields with tags that are `ok`, and groups that are nested at most `depth` deep. -/
def Fields (maxSize depth : ℕ) (ok : ℕ → Prop) : List UInt8 → Prop := FieldSeq (Field maxSize (Groups maxSize depth)) ok

variable {maxSize depth tag : ℕ} {group : List UInt8 → Prop} {ok : ℕ → Prop} {body bs bs' : List UInt8}

theorem Field.tag_lt (h : Field maxSize group tag body) : 8 ≤ tag ∧ tag < 2 ^ 32 := by
  cases h with
  | varint hnum | fixed64 hnum | delimited hnum | group hnum | fixed32 hnum =>
    obtain ⟨hpos, hlt⟩ := hnum
    omega

theorem Field.not_end (h : Field maxSize group tag body) : tag % 8 ≠ 4 := by
  cases h <;> omega

theorem FieldSeq.append {field : ℕ → List UInt8 → Prop} (h : FieldSeq field ok bs) (h' : FieldSeq field ok bs') :
    FieldSeq field ok (bs ++ bs') := by
  induction h with
  | nil => exact h'
  | cons htag hfield _ ih =>
    rw [List.append_assoc]
    exact .cons htag hfield ih

theorem Fields.append (h : Fields maxSize depth ok bs) (h' : Fields maxSize depth ok bs') :
    Fields maxSize depth ok (bs ++ bs') :=
  FieldSeq.append h h'

theorem Fields.nil : Fields maxSize depth ok [] := FieldSeq.nil

/-- One field. -/
theorem Fields.single (htag : ok tag) (h : Field maxSize (Groups maxSize depth) tag body) :
    Fields maxSize depth ok (toBase128 tag ++ body) := by
  have hseq := FieldSeq.cons htag h .nil
  rwa [List.append_nil] at hseq

end Lib
