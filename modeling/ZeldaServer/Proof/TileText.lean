import ZeldaServer.Proof.Tiles
import Mathlib.Data.Nat.Digits.Lemmas

/-!
# Writing a tile map

The text of a map: its two sizes in decimal, and a line of digits for every row. `LoadFile`
reads it back.

* `readInt_numeral`: a number that was written is read.
* `loadFile_mapText`: so is a map.
-/

namespace ZeldaServer

open Lib

/-- `L'0' + d` -/
def digitChar (d : ℕ) : UInt16 := UInt16.ofNat (48 + d)

/-- A number in decimal. -/
def numeral (n : ℕ) : List UInt16 := if n = 0 then [digitChar 0] else (Nat.digits 10 n).reverse.map digitChar

/-- The lines of a map, one for every row. -/
def mapLines (rows : List (List ℕ)) : List UInt16 := rows.flatMap fun row => 10 :: row.map digitChar

/-- The text of a map with `h` rows of `w` tiles. -/
def mapText (w h : ℕ) (rows : List (List ℕ)) : List UInt16 := numeral w ++ 32 :: (numeral h ++ mapLines rows)

variable {n d : ℕ} {c : UInt16} {rest spaces : List UInt16}

theorem digitChar_toNat (hd : d < 10) : (digitChar d).toNat = 48 + d :=
  UInt16.toNat_ofNat_of_lt' (show 48 + d < 65536 by omega)

theorem iswdigit_iff : iswdigit c = true ↔ 48 ≤ c.toNat ∧ c.toNat ≤ 57 := by
  unfold iswdigit
  rw [Bool.and_eq_true, decide_eq_true_iff, decide_eq_true_iff, UInt16.le_iff_toNat_le, UInt16.le_iff_toNat_le]
  rfl

theorem iswdigit_digitChar (hd : d < 10) : iswdigit (digitChar d) = true := by
  rw [iswdigit_iff, digitChar_toNat hd]
  omega

/-- A digit is no white space, and no sign. -/
theorem digit_solid (h : iswdigit c = true) : iswspace c = false ∧ c ≠ 45 ∧ c ≠ 43 := by
  rw [iswdigit_iff] at h
  have hne : ∀ a : UInt16, a.toNat < 48 → c ≠ a := by
    rintro a ha rfl
    omega
  refine ⟨?_, hne 45 (by decide), hne 43 (by decide)⟩
  have hlate : ¬ c ≤ 13 := by
    rw [UInt16.le_iff_toNat_le, show (13 : UInt16).toNat = 13 from rfl]
    omega
  unfold iswspace
  simp [hne 32 (by decide), hlate]

theorem numeral_digits : ∀ c ∈ numeral n, iswdigit c = true := by
  intro c hc
  unfold numeral at hc
  split at hc
  · rw [List.mem_singleton.1 hc]
    rfl
  · obtain ⟨d, hd, rfl⟩ := List.mem_map.1 hc
    exact iswdigit_digitChar (Nat.digits_lt_base (by decide) (List.mem_reverse.1 hd))

theorem numeral_ne_nil : numeral n ≠ [] := by
  unfold numeral
  split
  · exact List.cons_ne_nil _ _
  · rename_i hn
    simpa [Nat.digits_eq_nil_iff_eq_zero] using hn

/-- The value of written digits, by induction on the digits from the last one. -/
theorem decimal_digits (l : List ℕ) (hl : ∀ d ∈ l, d < 10) :
    Wifstream.decimal (l.reverse.map digitChar) = Nat.ofDigits 10 l := by
  induction l with
  | nil => rfl
  | cons d l ih =>
    have hd := hl d List.mem_cons_self
    have hrest := ih fun e he => hl e (List.mem_cons_of_mem _ he)
    unfold Wifstream.decimal at hrest ⊢
    rw [List.reverse_cons, List.map_append, List.foldl_append, hrest]
    show 10 * Nat.ofDigits 10 l + ((digitChar d).toNat - 48) = _
    rw [digitChar_toNat hd, Nat.add_sub_cancel_left, Nat.ofDigits_cons]
    exact Nat.add_comm _ _

theorem decimal_numeral : Wifstream.decimal (numeral n) = n := by
  unfold numeral
  split
  · rename_i hn
    rw [hn]
    rfl
  · rw [decimal_digits _ fun d hd => Nat.digits_lt_base (by decide) hd, Nat.ofDigits_digits]

/-- **A number that was written is read**, from behind white space up to what is no digit. -/
theorem readInt_numeral (spaces : List UInt16) {value : Int32} (hn : n < 2147483648) (hspaces : ∀ c ∈ spaces, iswspace c = true)
    (hrest : ∀ c ∈ rest.head?, iswdigit c = false) :
    Wifstream.readInt value { rest := spaces ++ (numeral n ++ rest) } = (Int32.ofNat n, { rest := rest, eofbit := rest.isEmpty }) := by
  obtain ⟨c, digits, hnumeral⟩ := List.exists_cons_of_ne_nil (numeral_ne_nil (n := n))
  have hdigit : ∀ a ∈ numeral n, iswdigit a = true := numeral_digits
  have hc : iswdigit c = true := hdigit c (by rw [hnumeral]; exact List.mem_cons_self)
  obtain ⟨hsolid, hminus, hplus⟩ := digit_solid hc
  have hsentry : Wifstream.sentry { rest := spaces ++ (numeral n ++ rest) } = (true, { rest := numeral n ++ rest }) := by
    unfold Wifstream.sentry
    rw [if_pos (show Wifstream.good _ = true from rfl), List.dropWhile_append_of_pos hspaces, hnumeral,
      List.cons_append, List.dropWhile_cons_of_neg (by simp [hsolid])]
  have hsign : Wifstream.sign (numeral n ++ rest) = (1, numeral n ++ rest) := by
    rw [hnumeral, List.cons_append]
    unfold Wifstream.sign
    dsimp only
    rw [if_neg hminus, if_neg hplus]
  have htake : (numeral n ++ rest).takeWhile iswdigit = numeral n := by
    rw [List.takeWhile_append_of_pos hdigit]
    cases rest with
    | nil => simp
    | cons b rest => rw [List.takeWhile_cons_of_neg (by simp [hrest b rfl]), List.append_nil]
  have hdrop : (numeral n ++ rest).dropWhile iswdigit = rest := by
    rw [List.dropWhile_append_of_pos hdigit]
    cases rest with
    | nil => rfl
    | cons b rest => exact List.dropWhile_cons_of_neg (by simp [hrest b rfl])
  unfold Wifstream.readInt
  rw [hsentry]
  dsimp only
  rw [if_pos rfl, hsign]
  dsimp only
  rw [htake, hdrop, if_neg numeral_ne_nil, decimal_numeral, if_neg (by omega), if_neg (by omega), Int.one_mul]
  rfl

/-! ## The map -/

variable {w h : ℕ} {rows : List (List ℕ)} {file : Option (List UInt16)} {map : TileMap}

/-- `rows` are `h` rows of `w` digits. -/
structure Digits (w h : ℕ) (rows : List (List ℕ)) : Prop where
  height : rows.length = h
  width : ∀ row ∈ rows, row.length = w
  digits : ∀ row ∈ rows, ∀ d ∈ row, d < 10

theorem header_mapText (hw : w < 2147483648) (hh : h < 2147483648) : header (some (mapText w h rows)) map =
    (⟨Int32.ofNat w, Int32.ofNat h⟩, { rest := mapLines rows, eofbit := (mapLines rows).isEmpty }) := by
  have hfirst : Wifstream.readInt map.mapSize.x (Wifstream.opened (some (mapText w h rows))) =
      (Int32.ofNat w, { rest := 32 :: (numeral h ++ mapLines rows) }) :=
    readInt_numeral [] hw nofun (by simp [iswdigit])
  have hsecond : Wifstream.readInt map.mapSize.y { rest := 32 :: (numeral h ++ mapLines rows) } =
      (Int32.ofNat h, { rest := mapLines rows, eofbit := (mapLines rows).isEmpty }) := by
    refine readInt_numeral [32] hh (by simp [iswspace]) fun c hc => ?_
    cases rows with
    | nil => simp [mapLines] at hc
    | cons row rows =>
      obtain rfl : 10 = c := by simpa [mapLines] using hc
      rfl
  unfold header
  rw [hfirst]
  dsimp only
  rw [hsecond]

/-- The words behind the sizes are the rows. -/
theorem fileRows_mapText (hw : 0 < w) (hw' : w < 2147483648) (hh : h < 2147483648) (hd : Digits w h rows) :
    fileRows (some (mapText w h rows)) map = rows.map fun row => row.map digitChar := by
  have hjoin : mapLines rows = (rows.map fun row => row.map digitChar).flatMap (10 :: ·) := by
    unfold mapLines
    rw [List.flatMap_map]
  have hwords : words iswspace (mapLines rows) = rows.map fun row => row.map digitChar := by
    rw [hjoin]
    refine words_join rfl fun word hword => ?_
    obtain ⟨row, hrow, rfl⟩ := List.mem_map.1 hword
    refine ⟨?_, fun c hc => ?_⟩
    · rw [← List.length_pos_iff, List.length_map, hd.width row hrow]
      exact hw
    · obtain ⟨d, hmem, rfl⟩ := List.mem_map.1 hc
      exact (digit_solid (iswdigit_digitChar (hd.digits row hrow d hmem))).1
  unfold fileRows
  rw [header_mapText hw' hh]
  unfold Wifstream.words
  dsimp only
  rw [hwords]
  cases rows with
  | nil => rfl
  | cons row rows => rfl

theorem tileOf_digitChar : ∀ d < 10, tileOf (digitChar d) = Int32.ofNat d := by decide

/-- **A map that was written is read back.** -/
theorem loadFile_mapText (hw : 0 < w) (hw' : w < 2147483648) (hh : h < 2147483648) (hd : Digits w h rows) :
    TileMap.loadFile (some (mapText w h rows)) map =
      .ok (.returned ⟨⟨Int32.ofNat w, Int32.ofNat h⟩, rows.map fun row => row.map Int32.ofNat⟩) := by
  have hspec := loadFile_spec (some (mapText w h rows)) map
  rw [fileRows_mapText hw hw' hh hd, declared, header_mapText hw' hh] at hspec
  dsimp only at hspec
  have hwn : (Int32.ofNat w).toInt = w := Int32.toInt_ofNat_of_lt hw'
  have hhn : (Int32.ofNat h).toInt = h := Int32.toInt_ofNat_of_lt hh
  have hpos : ∀ {n : Int32} {k : ℕ}, n.toInt = k → ¬ n < 0 := by
    intro n k hn hneg
    have hlt := Int32.lt_iff_toInt_lt.1 hneg
    rw [hn] at hlt
    exact absurd hlt (Int.not_lt.2 (Int.natCast_nonneg k))
  rw [hwn, hhn, Int.toNat_natCast, Int.toNat_natCast] at hspec
  -- every row is as wide as the map
  have hline : ∀ y < h, ∃ row, rows[y]? = some row ∧ row ∈ rows ∧
      (rows.map fun row => row.map digitChar).getD y [] = row.map digitChar := by
    intro y hy
    have hin : y < rows.length := hd.height ▸ hy
    refine ⟨rows[y], List.getElem?_eq_getElem hin, List.getElem_mem hin, ?_⟩
    rw [List.getD_eq_getElem?_getD, List.getElem?_map, List.getElem?_eq_getElem hin]
    rfl
  cases hload : TileMap.loadFile (some (mapText w h rows)) map with
  | error e =>
    obtain ⟨-, -, y, hy, hshort⟩ := hspec.fault hload
    obtain ⟨row, -, hmem, hrow⟩ := hline y hy
    rw [hrow, List.length_map, hd.width row hmem] at hshort
    omega
  | ok ret =>
    obtain ⟨hneg, -⟩ | ⟨-, tiles, rfl, hfilled⟩ := hspec.result hload
    · rcases hneg with hneg | hneg
      · exact absurd hneg (hpos hwn)
      · exact absurd hneg (hpos hhn)
    have hwritten : Grid w h (rows.map fun row => row.map Int32.ofNat) := by
      refine ⟨by rw [List.length_map, hd.height], fun row hrow => ?_⟩
      obtain ⟨row', hmem, rfl⟩ := List.mem_map.1 hrow
      rw [List.length_map, hd.width row' hmem]
    rw [hfilled.grid.ext hwritten fun y hy x hx => ?_]
    obtain ⟨row, hy', hmem, hrow⟩ := hline y hy
    have hx' : x < row.length := (hd.width row hmem).symm ▸ hx
    rw [hfilled.tile y hy x hx, hrow]
    unfold tileIn
    rw [List.getElem?_map, hy', Option.map_some, Option.bind_some, List.getElem?_map, List.getD_eq_getElem?_getD,
      List.getElem?_map, List.getElem?_eq_getElem hx']
    exact congrArg some (tileOf_digitChar _ (hd.digits row hmem _ (List.getElem_mem hx')))

/-- A map of two rows. -/
example : mapText 3 2 [[0, 1, 0], [1, 1, 0]] = [51, 32, 50, 10, 48, 49, 48, 10, 49, 49, 48] := by decide

end ZeldaServer
