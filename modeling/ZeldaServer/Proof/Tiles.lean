import ZeldaServer.Lib.Words
import ZeldaServer.Proof.Distance
import ZeldaServer.Spec.TileFile

/-!
# What the tile map holds after loading

The rows of a file are the words behind its two sizes. `LoadFile` goes through them by the
width that the file declares: a row that is shorter is read up to its null character, and
then behind its end.

* `loadFile_spec`: how `LoadFile` ends.
* `loadFile_exact_iff`: the files whose map is what they declare.
* `loadFile_inRange`: on a map that was loaded `GetTileAt` stays in range.
-/

namespace ZeldaServer

open Lib

variable {w h y x y' x' n : ℕ} {tiles tiles' : List (List Int32)} {row line : List UInt16} {v : Int32} {map : TileMap}
  {ifs : Wifstream} {pos : VectorInt}

/-! ## Reading rows -/

/-- The words that are still to be read. -/
def Wifstream.words (ifs : Wifstream) : List (List UInt16) := if ifs.good then Lib.words iswspace ifs.rest else []

/-- A stream that is in order is at its end or at a word, behind white space. -/
theorem sentry_words (ifs : Wifstream) : (ifs.sentry.1 = false ∧ ifs.words = [] ∧ ifs.sentry.2.words = []) ∨
    ∃ c rest, iswspace c = false ∧ ifs.sentry = (true, { ifs with rest := c :: rest }) ∧
      ifs.words = Lib.words iswspace (c :: rest) := by
  unfold Wifstream.sentry Wifstream.words
  by_cases hgood : ifs.good = true
  · rw [if_pos hgood, if_pos hgood, ← words_dropWhile]
    have hstop := List.head?_dropWhile_not iswspace ifs.rest
    cases hrest : ifs.rest.dropWhile iswspace with
    | nil => exact .inl ⟨rfl, rfl, rfl⟩
    | cons c rest =>
      rw [hrest] at hstop
      exact .inr ⟨c, rest, hstop, rfl, rfl⟩
  · rw [if_neg hgood, if_neg hgood]
    refine .inl ⟨rfl, rfl, if_neg ?_⟩
    simp [Wifstream.good]

/-- **`ifs >> line` takes the next word**, and leaves an empty line empty when there is none. -/
theorem readWord_words (ifs : Wifstream) :
    (ifs.readWord []).1 = ifs.words.headD [] ∧ (ifs.readWord []).2.words = ifs.words.tail := by
  unfold Wifstream.readWord
  rcases sentry_words ifs with ⟨hok, hnone, hnone'⟩ | ⟨c, rest, hc, hsentry, hwords⟩
  · rw [hnone]
    cases hs : ifs.sentry with
    | mk ok ifs' =>
      rw [hs] at hok hnone'
      subst hok
      exact ⟨rfl, hnone'⟩
  · rw [hsentry, hwords, words_next hc]
    refine ⟨rfl, ?_⟩
    show Wifstream.words ⟨(c :: rest).dropWhile fun c => !iswspace c, ((c :: rest).dropWhile fun c => !iswspace c).isEmpty, false⟩ = _
    generalize (c :: rest).dropWhile (fun c => !iswspace c) = rest'
    cases rest' with
    | nil => rfl
    | cons d rest' => rfl

/-! ## The tiles -/

/-- `tiles` are `h` rows of `w` tiles. -/
structure Grid (w h : ℕ) (tiles : List (List Int32)) : Prop where
  rows : tiles.length = h
  columns : ∀ row ∈ tiles, row.length = w

/-- The value of the tile in row `y` and column `x`. -/
def tileIn (tiles : List (List Int32)) (y x : ℕ) : Option Int32 := (tiles[y]?).bind fun row => row[x]?

theorem tileIn_eq (hy : y < tiles.length) (hx : x < tiles[y].length) : tileIn tiles y x = some tiles[y][x] := by
  unfold tileIn
  rw [List.getElem?_eq_getElem hy, Option.bind_some, List.getElem?_eq_getElem hx]

theorem Grid.tile (hg : Grid w h tiles) (hy : y < h) (hx : x < w) : ∃ v, tileIn tiles y x = some v := by
  have hrow : y < tiles.length := hg.rows.symm ▸ hy
  have hcol : x < tiles[y].length := (hg.columns _ (List.getElem_mem hrow)).symm ▸ hx
  exact ⟨_, tileIn_eq hrow hcol⟩

/-- A grid is known by its tiles. -/
theorem Grid.ext (hg : Grid w h tiles) (hg' : Grid w h tiles')
    (heq : ∀ y < h, ∀ x < w, tileIn tiles y x = tileIn tiles' y x) : tiles = tiles' := by
  refine List.ext_getElem (hg.rows.trans hg'.rows.symm) fun y hy hy' => ?_
  have hw := hg.columns _ (List.getElem_mem hy)
  have hw' := hg'.columns _ (List.getElem_mem hy')
  refine List.ext_getElem (hw.trans hw'.symm) fun x hx hx' => ?_
  have hsame := heq y (hg.rows ▸ hy) x (hw ▸ hx)
  rw [tileIn_eq hy hx, tileIn_eq hy' hx'] at hsame
  exact Option.some.inj hsame

/-- A tile that there is lies in the grid. -/
theorem Grid.inside (hg : Grid w h tiles) (hv : tileIn tiles y x = some v) : y < h ∧ x < w := by
  obtain ⟨row, hrow, hcol⟩ := Option.bind_eq_some_iff.1 hv
  obtain ⟨hy, rfl⟩ := List.getElem?_eq_some_iff.1 hrow
  obtain ⟨hx, -⟩ := List.getElem?_eq_some_iff.1 hcol
  exact ⟨hg.rows ▸ hy, hg.columns _ (List.getElem_mem hy) ▸ hx⟩

/-- **`_tiles[y][x] = v`** within the grid. -/
theorem Grid.setTile (hg : Grid w h tiles) (hy : y < h) (hx : x < w) :
    Returns (setTile tiles y x v) fun tiles' => Grid w h tiles' ∧
      ∀ y' x', tileIn tiles' y' x' = if y' = y ∧ x' = x then some v else tileIn tiles y' x' := by
  have hrow : y < tiles.length := hg.rows.symm ▸ hy
  have hcol : x < tiles[y].length := (hg.columns _ (List.getElem_mem hrow)).symm ▸ hx
  unfold ZeldaServer.setTile
  rw [List.getElem?_eq_getElem hrow]
  dsimp only
  rw [if_pos hcol]
  refine .ok ⟨⟨by rw [List.length_set, hg.rows], fun row hmem => ?_⟩, fun y' x' => ?_⟩
  · rcases List.mem_or_eq_of_mem_set hmem with hold | rfl
    · exact hg.columns row hold
    · rw [List.length_set]
      exact hg.columns _ (List.getElem_mem hrow)
  · unfold tileIn
    by_cases hyy : y' = y
    · rw [hyy, List.getElem?_set_self hrow, Option.bind_some]
      by_cases hxx : x' = x
      · rw [hxx, List.getElem?_set_self hcol, if_pos ⟨rfl, rfl⟩]
      · rw [List.getElem?_set_ne (Ne.symm hxx), if_neg fun hboth => hxx hboth.2, List.getElem?_eq_getElem hrow]
        rfl
    · rw [List.getElem?_set_ne (Ne.symm hyy), if_neg fun hboth => hyy hboth.1]

theorem grid_replicate : Grid w h (List.replicate h (List.replicate w 0)) :=
  ⟨List.length_replicate, fun row hrow => by rw [List.eq_of_mem_replicate hrow, List.length_replicate]⟩

/-! ## The loops -/

theorem setMapSize_thrown {size : VectorInt} (hneg : size.x < 0 ∨ size.y < 0) :
    TileMap.setMapSize size map = .ok (.thrown { map with mapSize := size }) := by
  have hnone : (vectorOf size.x (0 : Int32)).bind (vectorOf size.y) = none := by
    unfold vectorOf
    rcases hneg with hx | hy
    · simp [hx]
    · simp [hy]
  unfold TileMap.setMapSize
  rw [hnone]

/-- **`SetMapSize`** of a size that is not negative. -/
theorem setMapSize_spec {size : VectorInt} (hx : 0 ≤ size.x) (hy : 0 ≤ size.y) :
    Returns (TileMap.setMapSize size map) fun ret => ∃ tiles, ret = .returned ⟨size, tiles⟩ ∧
      Grid size.x.toInt.toNat size.y.toInt.toNat tiles := by
  have hsome : (vectorOf size.x (0 : Int32)).bind (vectorOf size.y) =
      some (List.replicate size.y.toInt.toNat (List.replicate size.x.toInt.toNat 0)) := by
    unfold vectorOf
    rw [if_neg (Int32.not_lt.2 hx), Option.bind_some, if_neg (Int32.not_lt.2 hy)]
  unfold TileMap.setMapSize
  rw [hsome]
  dsimp only
  have hfill : Returns ((indices size.y).foldlM (fun tiles y =>
      (indices size.x).foldlM (fun tiles x => setTile tiles y x 0) tiles)
      (List.replicate size.y.toInt.toNat (List.replicate size.x.toInt.toNat 0)))
      (Grid size.x.toInt.toNat size.y.toInt.toNat) := by
    refine Post.forRange (I := fun _ => Grid size.x.toInt.toNat size.y.toInt.toNat) _ (fun y hy tiles hg => ?_) grid_replicate
    refine Post.forRange (I := fun _ => Grid size.x.toInt.toNat size.y.toInt.toNat) _ (fun x hx tiles hg => ?_) hg
    exact (hg.setTile hy hx).imp fun tiles' h' => h'.1
  exact hfill.bind fun tiles hg => .ok ⟨tiles, rfl, hg⟩

/-- The value that `LoadFile` gives the tile of a character. -/
def tileOf (c : UInt16) : Int32 := Int32.ofNat c.toNat - 48

/-- **One row.** The loop reads the line up to the null character behind it. -/
theorem loadLine_spec {size : VectorInt} (hg : Grid size.x.toInt.toNat h tiles) (hy : y < h) :
    Post (fun e => e = .undefined ∧ line.length + 1 < size.x.toInt.toNat) (TileMap.loadLine size y line tiles) fun tiles' =>
      size.x.toInt.toNat ≤ line.length + 1 ∧ Grid size.x.toInt.toNat h tiles' ∧ ∀ y' x', tileIn tiles' y' x' =
        if y' = y ∧ x' < size.x.toInt.toNat then some (tileOf (line.getD x' 0)) else tileIn tiles y' x' := by
  refine Post.forRange (I := fun n tiles' => n ≤ line.length + 1 ∧ Grid size.x.toInt.toNat h tiles' ∧ ∀ y' x',
    tileIn tiles' y' x' = if y' = y ∧ x' < n then some (tileOf (line.getD x' 0)) else tileIn tiles y' x') _
    (fun x hx tiles₁ h₁ => ?_) ⟨Nat.zero_le _, hg, fun y' x' => by simp⟩
  obtain ⟨-, hg₁, htiles₁⟩ := h₁
  by_cases hin : x ≤ line.length
  · rw [show charAt line x = .ok (line.getD x 0) from if_pos hin, ok_bind]
    refine (hg₁.setTile hy hx).post.imp fun tiles₂ h₂ => ?_
    obtain ⟨hg₂, htiles₂⟩ := h₂
    refine ⟨Nat.succ_le_succ hin, hg₂, fun y' x' => ?_⟩
    rw [htiles₂, htiles₁]
    by_cases hx' : x' = x
    · simp [hx', tileOf]
    · have hlt : x' < x + 1 ↔ x' < x := by omega
      simp [hx', hlt]
  · rw [show charAt line x = .error .undefined from if_neg hin, error_bind]
    exact .error ⟨rfl, by omega⟩

/-- The first `n` rows of the map are made of words; none of them is too short to be read. -/
structure Filled (w h : ℕ) (rows : List (List UInt16)) (n : ℕ) (tiles : List (List Int32)) : Prop where
  grid : Grid w h tiles
  long : ∀ y < n, w ≤ (rows.getD y []).length + 1
  tile : ∀ y < n, ∀ x < w, tileIn tiles y x = some (tileOf ((rows.getD y []).getD x 0))

/-- **The loop over the rows.** Row `y` of the map is made of the `y`-th word. -/
theorem loadRows_spec {size : VectorInt} (hg : Grid size.x.toInt.toNat h tiles) :
    Post (fun e => e = .undefined ∧ ∃ y < h, (ifs.words.getD y []).length + 1 < size.x.toInt.toNat)
      ((List.range h).foldlM (TileMap.loadRow size) (tiles, ifs)) fun st => Filled size.x.toInt.toNat h ifs.words h st.1 := by
  refine (Post.forRange (I := fun n st => st.2.words = ifs.words.drop n ∧ Filled size.x.toInt.toNat h ifs.words n st.1) _
    (fun y hy st h₁ => ?_) ⟨rfl, hg, nofun, nofun⟩).imp fun st' h' => h'.2
  obtain ⟨hwords, hfilled⟩ := h₁
  obtain ⟨hline, hrest⟩ := readWord_words st.2
  rw [hwords] at hline hrest
  have hhead : (st.2.readWord []).1 = ifs.words.getD y [] := by
    rw [hline, List.headD_eq_head?_getD, List.head?_drop, List.getD_eq_getElem?_getD]
  unfold TileMap.loadRow
  dsimp only
  rw [hhead]
  refine ((loadLine_spec hfilled.grid hy).weaken fun e he => ⟨he.1, y, hy, he.2⟩).bind fun tiles' h' => .ok ⟨?_, ?_⟩
  · rw [hrest, List.tail_drop]
  obtain ⟨hlong, hg', htiles'⟩ := h'
  refine ⟨hg', fun y' hy' => ?_, fun y' hy' x hx => ?_⟩
  · rcases Nat.lt_succ_iff_lt_or_eq.1 hy' with hlt | rfl
    · exact hfilled.long y' hlt
    · exact hlong
  · rw [htiles']
    rcases Nat.lt_succ_iff_lt_or_eq.1 hy' with hlt | rfl
    · rw [if_neg fun hboth => Nat.ne_of_lt hlt hboth.1]
      exact hfilled.tile y' hlt x hx
    · rw [if_pos ⟨rfl, hx⟩]

/-! ## The file -/

/-- The size that a file declares, and the stream behind it. A number that is not there is as the map has it. -/
def header (file : Option (List UInt16)) (map : TileMap) : VectorInt × Wifstream :=
  let (x, ifs) := (Wifstream.opened file).readInt map.mapSize.x
  let (y, ifs) := ifs.readInt map.mapSize.y
  (⟨x, y⟩, ifs)

/-- The size that a file declares. -/
def declared (file : Option (List UInt16)) (map : TileMap) : VectorInt := (header file map).1

/-- The rows of a file: the words behind the sizes. -/
def fileRows (file : Option (List UInt16)) (map : TileMap) : List (List UInt16) := (header file map).2.words

/-- The digit in row `y` and column `x` of a file. -/
def digitAt (file : Option (List UInt16)) (map : TileMap) (y x : ℕ) : Option ℤ :=
  (((fileRows file map)[y]?).bind fun row => row[x]?).bind fun c => if iswdigit c then some (c.toNat - 48) else none

variable {file : Option (List UInt16)} {ret : Loaded}

/-- **How `LoadFile` ends**: it throws if a size is negative; else it returns unless a row
is shorter than the map by two tiles. -/
theorem loadFile_spec (file : Option (List UInt16)) (map : TileMap) :
    Post (fun e => e = .undefined ∧ (0 ≤ (declared file map).x ∧ 0 ≤ (declared file map).y) ∧
      ∃ y < (declared file map).y.toInt.toNat,
        ((fileRows file map).getD y []).length + 1 < (declared file map).x.toInt.toNat)
    (TileMap.loadFile file map) fun ret =>
      (((declared file map).x < 0 ∨ (declared file map).y < 0) ∧ ret = .thrown { map with mapSize := declared file map }) ∨
      ((0 ≤ (declared file map).x ∧ 0 ≤ (declared file map).y) ∧ ∃ tiles, ret = .returned ⟨declared file map, tiles⟩ ∧
        Filled (declared file map).x.toInt.toNat (declared file map).y.toInt.toNat (fileRows file map)
          (declared file map).y.toInt.toNat tiles) := by
  have hload : TileMap.loadFile file map =
      TileMap.setMapSize (declared file map) map >>= TileMap.loadTiles (header file map).2 := rfl
  rw [hload]
  by_cases hneg : (declared file map).x < 0 ∨ (declared file map).y < 0
  · rw [setMapSize_thrown hneg, ok_bind]
    exact .ok (.inl ⟨hneg, rfl⟩)
  · have hsize : 0 ≤ (declared file map).x ∧ 0 ≤ (declared file map).y := by
      rw [not_or, Int32.not_lt, Int32.not_lt] at hneg
      exact hneg
    refine (setMapSize_spec hsize.1 hsize.2).post.bind fun ret hret => ?_
    obtain ⟨tiles, rfl, hg⟩ := hret
    refine ((loadRows_spec hg).weaken fun e he => ?_).bind fun st hst => .ok (.inr ⟨hsize, st.1, rfl, hst⟩)
    exact ⟨he.1, hsize, he.2⟩

/-! ## What was loaded -/

/-- **On a grid `GetTileAt` stays in range.** -/
theorem Grid.tileAt {size : VectorInt} (hx : 0 ≤ size.x) (hy : 0 ≤ size.y)
    (hg : Grid size.x.toInt.toNat size.y.toInt.toNat tiles) (pos : VectorInt) :
    TileMap.tileAt ⟨size, tiles⟩ pos = .ok (TileMap.getTileAt ⟨size, tiles⟩ pos) := by
  unfold TileMap.tileAt TileMap.getTileAt
  dsimp only
  split
  · rfl
  · rename_i hout
    simp only [not_or, Int32.le_iff_toInt_le, Int32.lt_iff_toInt_lt] at hout hx hy
    obtain ⟨hpx, hpx', hpy, hpy'⟩ := hout
    have hzero : (0 : Int32).toInt = 0 := rfl
    rw [hzero] at hpx hpy hx hy
    obtain ⟨v, hv⟩ := hg.tile (y := pos.y.toInt.toNat) (x := pos.x.toInt.toNat) (by omega) (by omega)
    rw [show (tiles[pos.y.toInt.toNat]?).bind (fun row => row[pos.x.toInt.toNat]?) = some v from hv]

/-- The map is what the file says: `_mapSize.y` rows of `_mapSize.x` tiles, each with the digit
that stands in its row and column, and `GetTileAt` returns null or a tile that is there. -/
structure Exact (file : Option (List UInt16)) (map map' : TileMap) : Prop where
  size : map'.mapSize = declared file map
  rows : (map'.tiles.length : ℤ) = map'.mapSize.y.toInt
  columns : ∀ row ∈ map'.tiles, (row.length : ℤ) = map'.mapSize.x.toInt
  digit : ∀ y x v, tileIn map'.tiles y x = some v → digitAt file map y x = some v.toInt
  tiles : ∀ pos, ∃ ret, map'.tileAt pos = .ok ret

/-- A file whose sizes are not negative and that has a digit for every tile. -/
structure Regular (file : Option (List UInt16)) (map : TileMap) : Prop where
  width : 0 ≤ (declared file map).x
  height : 0 ≤ (declared file map).y
  digits : ∀ y < (declared file map).y.toInt.toNat, ∀ x < (declared file map).x.toInt.toNat,
    (digitAt file map y x).isSome

theorem tileOf_toInt (c : UInt16) : (tileOf c).toInt = c.toNat - 48 := by
  have hc : c.toNat < 65536 := c.toNat_lt
  have hnat : (Int32.ofNat c.toNat).toInt = c.toNat := Int32.toInt_ofNat_of_lt (by omega)
  have h48 : (48 : Int32).toInt = 48 := rfl
  unfold tileOf
  rw [toInt_sub, hnat, h48] <;> rw [hnat, h48] <;> omega

/-- A digit of a file is a character of the row, and `LoadFile` gives the tile its value. -/
theorem digitAt_some (h : (digitAt file map y x).isSome) : x < ((fileRows file map).getD y []).length ∧
    digitAt file map y x = some (tileOf (((fileRows file map).getD y []).getD x 0)).toInt := by
  obtain ⟨d, hd⟩ := Option.isSome_iff_exists.1 h
  obtain ⟨c, hc, hdigit⟩ := Option.bind_eq_some_iff.1 hd
  obtain ⟨row, hrow, hcol⟩ := Option.bind_eq_some_iff.1 hc
  have hline : (fileRows file map).getD y [] = row := by rw [List.getD_eq_getElem?_getD, hrow, Option.getD_some]
  have hchar : row.getD x 0 = c := by rw [List.getD_eq_getElem?_getD, hcol, Option.getD_some]
  obtain ⟨hx, -⟩ := List.getElem?_eq_some_iff.1 hcol
  rw [hline, hchar, tileOf_toInt, hd]
  refine ⟨hx, ?_⟩
  split at hdigit
  · exact hdigit.symm
  · cases hdigit

/-- **Loading is safe and exact**, without an access out of range, exactly for the regular files. -/
theorem loadFile_exact_iff (file : Option (List UInt16)) (map : TileMap) :
    (∃ map', TileMap.loadFile file map = .ok (.returned map') ∧ Exact file map map') ↔ Regular file map := by
  have hspec := loadFile_spec file map
  constructor
  · rintro ⟨map', hload, hexact⟩
    obtain ⟨-, hthrown⟩ | ⟨⟨hx, hy⟩, tiles, hret, hfilled⟩ := hspec.result hload
    · cases hthrown
    obtain rfl : map' = ⟨declared file map, tiles⟩ := Loaded.returned.inj hret
    refine ⟨hx, hy, fun y hy x hx => ?_⟩
    rw [hexact.digit y x _ (hfilled.tile y hy x hx)]
    rfl
  · intro hregular
    have hlong : ¬ ∃ y < (declared file map).y.toInt.toNat,
        ((fileRows file map).getD y []).length + 1 < (declared file map).x.toInt.toNat := by
      rintro ⟨y, hy, hshort⟩
      have hlast := (digitAt_some (hregular.digits y hy ((declared file map).x.toInt.toNat - 1) (by omega))).1
      omega
    cases hload : TileMap.loadFile file map with
    | error e => exact absurd (hspec.fault hload).2.2 hlong
    | ok ret =>
      obtain ⟨hneg, -⟩ | ⟨⟨hx, hy⟩, tiles, rfl, hfilled⟩ := hspec.result hload
      · rcases hneg with hneg | hneg
        · exact absurd hregular.width (Int32.not_le.2 hneg)
        · exact absurd hregular.height (Int32.not_le.2 hneg)
      refine ⟨_, rfl, rfl, ?_, fun row hrow => ?_, fun y x v hv => ?_, fun pos => ⟨_, hfilled.grid.tileAt hx hy pos⟩⟩
      · rw [hfilled.grid.rows]
        exact Int.toNat_of_nonneg (Int32.le_iff_toInt_le.1 hy)
      · rw [hfilled.grid.columns row hrow]
        exact Int.toNat_of_nonneg (Int32.le_iff_toInt_le.1 hx)
      · obtain ⟨hy', hx'⟩ := hfilled.grid.inside hv
        obtain rfl := Option.some.inj (hv.symm.trans (hfilled.tile y hy' x hx'))
        exact (digitAt_some (hregular.digits y hy' x hx')).2

/-- A file that declares rows of three tiles, and has a row of one: `3 1` and `0`. -/
theorem short_row : TileMap.loadFile (some [51, 32, 49, 10, 48]) {} = .error .undefined ∧
    ¬ ∃ map', TileMap.loadFile (some [51, 32, 49, 10, 48]) {} = .ok (.returned map') ∧
      Exact (some [51, 32, 49, 10, 48]) {} map' := by
  have hload : TileMap.loadFile (some [51, 32, 49, 10, 48]) {} = .error .undefined := by decide
  refine ⟨hload, ?_⟩
  rintro ⟨map', hreturned, -⟩
  rw [hload] at hreturned
  cases hreturned

/-- **Whatever the file**: once `LoadFile` has returned, `GetTileAt` stays in range. -/
theorem loadFile_inRange {map' : TileMap} (hload : TileMap.loadFile file map = .ok (.returned map')) (pos : VectorInt) :
    map'.tileAt pos = .ok (map'.getTileAt pos) := by
  obtain ⟨-, hthrown⟩ | ⟨⟨hx, hy⟩, tiles, hret, hfilled⟩ := (loadFile_spec file map).result hload
  · cases hthrown
  obtain rfl := Loaded.returned.inj hret
  exact hfilled.grid.tileAt hx hy pos

end ZeldaServer
