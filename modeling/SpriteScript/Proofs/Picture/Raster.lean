import SpriteScript.Proofs.Picture.Painting

/-!
# Rasters

A texture is painted in one row of bytes, where a span of a row of pixels is a slice. As long as the
slices stay within the row of the image that they are meant for, painting a record overwrites as
many bytes as it writes, and the bytes are those of a canvas on which the same is done
(`Canvas.paint_bytes`). So rendering an image whose numbers are those of some records is painting
these records on a canvas (`Image.render_of_buffer`).
-/

namespace SpriteScript

open EState

/-! ## Lists of equal parts -/

section Parts

variable {α β : Type} {f : α → List β} {n : Nat} {as : List α}

theorem length_flatMap_of_length (h : ∀ a ∈ as, (f a).length = n) :
    (as.flatMap f).length = n * as.length := by
  induction as with
  | nil => rfl
  | cons a as ih =>
    obtain ⟨ha, has⟩ := List.forall_mem_cons.mp h
    rw [List.flatMap_cons, List.length_append, ha, ih has, List.length_cons, Nat.mul_succ,
      Nat.add_comm]

theorem take_flatMap_mul (h : ∀ a ∈ as, (f a).length = n) (k : Nat) :
    (as.flatMap f).take (n * k) = (as.take k).flatMap f := by
  induction as generalizing k with
  | nil => simp
  | cons a as ih =>
    obtain ⟨ha, has⟩ := List.forall_mem_cons.mp h
    cases k with
    | zero => rfl
    | succ k =>
      have hlength : n * (k + 1) = (f a).length + n * k := by rw [ha, Nat.mul_succ, Nat.add_comm]
      rw [List.flatMap_cons, hlength, List.take_append,
        List.take_of_length_le (Nat.le_add_right _ _), Nat.add_sub_cancel_left, ih has,
        List.take_succ_cons, List.flatMap_cons]

theorem drop_flatMap_mul (h : ∀ a ∈ as, (f a).length = n) (k : Nat) :
    (as.flatMap f).drop (n * k) = (as.drop k).flatMap f := by
  have hsplit := List.take_append_drop (n * k) (as.flatMap f)
  rw [take_flatMap_mul h] at hsplit
  refine List.append_cancel_left (hsplit.trans ?_)
  rw [← List.flatMap_append, List.take_append_drop]

/-- Where all parts have one length, a part is found at a multiple of it. -/
theorem take_drop_flatMap (h : ∀ a ∈ as, (f a).length = n) (k : Nat) :
    ((as.flatMap f).drop (n * k)).take n = (as[k]?.map f).getD [] := by
  have hdrop : ∀ a ∈ as.drop k, (f a).length = n := fun a ha => h a (List.mem_of_mem_drop ha)
  have htake := take_flatMap_mul hdrop 1
  rw [Nat.mul_one] at htake
  rw [drop_flatMap_mul h, htake]
  cases hk : as[k]? with
  | none => simp [List.drop_eq_nil_of_le (List.getElem?_eq_none_iff.mp hk)]
  | some a =>
    obtain ⟨hlt, rfl⟩ := List.getElem?_eq_some_iff.mp hk
    rw [List.drop_eq_getElem_cons hlt, List.take_succ_cons, List.take_zero, List.flatMap_singleton]
    rfl

end Parts

theorem Pixel.length_toList (p : Pixel) : p.toList.length = 4 := rfl

theorem Record.length_toList (r : Record) : r.toList.length = 9 := rfl

namespace Canvas

variable {width height : Nat} {left right y : Nat} {rows out : Canvas} {row : List Pixel}
  {p : Pixel} {a : Area} {r : Record} {records : List Record}

def rowBytes (row : List Pixel) : Bytes := row.flatMap Pixel.toList

def bytes (rows : Canvas) : Bytes := rows.flatMap rowBytes

theorem length_rowBytes (row : List Pixel) : (rowBytes row).length = 4 * row.length :=
  length_flatMap_of_length fun p _ => p.length_toList

theorem length_rowBytes_of_mem (h : HasWidth rows width) :
    ∀ row ∈ rows, (rowBytes row).length = 4 * width := by
  intro row hrow
  rw [length_rowBytes, h row hrow]

theorem length_bytes (h : HasWidth rows width) : rows.bytes.length = 4 * (width * rows.length) := by
  rw [bytes, length_flatMap_of_length (length_rowBytes_of_mem h), Nat.mul_assoc]

/-! ## Spans of rows -/

/-- Overwrites the cells of a row from `left` up to and without `right`. -/
def fillSpan (left right : Nat) (p : Pixel) (row : List Pixel) : List Pixel :=
  row.take left ++ List.replicate (right - left) p ++ row.drop right

theorem length_fillSpan (hle : left ≤ right) (hright : right ≤ row.length) :
    (fillSpan left right p row).length = row.length := by
  simp only [fillSpan, List.length_append, List.length_take, List.length_replicate,
    List.length_drop]
  omega

theorem getElem?_fillSpan (hle : left ≤ right) (hright : right ≤ row.length) (x : Nat) :
    (fillSpan left right p row)[x]? = if left ≤ x ∧ x < right then some p else row[x]? := by
  have htake : (row.take left).length = left := by rw [List.length_take]; omega
  have hspan : (row.take left ++ List.replicate (right - left) p).length = right := by
    rw [List.length_append, htake, List.length_replicate]
    omega
  unfold fillSpan
  by_cases hx : x < right
  · rw [List.getElem?_append_left (by omega)]
    by_cases hleft : x < left
    · rw [List.getElem?_append_left (by omega), List.getElem?_take_of_lt hleft,
        if_neg (by omega)]
    · rw [List.getElem?_append_right (by omega), htake, List.getElem?_replicate,
        if_pos (by omega), if_pos (by omega)]
  · rw [List.getElem?_append_right (by omega), hspan, List.getElem?_drop, if_neg (by omega)]
    congr 1
    omega

theorem rowBytes_fillSpan (left right : Nat) (p : Pixel) (row : List Pixel) :
    rowBytes (fillSpan left right p row) =
      (rowBytes row).take (4 * left) ++ Raster.repeated (right - left) p.toList ++
        (rowBytes row).drop (4 * right) := by
  have hfour : ∀ q ∈ row, q.toList.length = 4 := fun q _ => q.length_toList
  rw [rowBytes, fillSpan, List.flatMap_append, List.flatMap_append, rowBytes,
    take_flatMap_mul hfour, drop_flatMap_mul hfour, Raster.repeated, List.flatMap_replicate]

/-- A span of a row is a slice of the bytes, and as long as what is put there. -/
theorem fillRow_bytes (h : HasWidth rows width) (hy : y < rows.length) (hle : left ≤ right)
    (hright : right ≤ width) :
    Raster.fillRow width left right p.toList rows.bytes y =
      Canvas.bytes (rows.modify y (fillSpan left right p)) := by
  have hparts := length_rowBytes_of_mem h
  have hrow : (rowBytes rows[y]).length = 4 * width := hparts _ (List.getElem_mem hy)
  have hindex : ∀ x : Nat, ((y : Int) * width + x) * 4 = ((4 * width * y + 4 * x : Nat) : Int) := by
    intro x
    push_cast
    rw [Int.add_mul, Int.mul_comm, Int.mul_comm (y : Int), Int.mul_assoc, Int.mul_comm (x : Int)]
  have hfits : 4 * width * y + 4 * right ≤ rows.bytes.length := by
    have hrows := Nat.mul_le_mul_left (4 * width) (Nat.succ_le_of_lt hy)
    rw [Nat.mul_succ] at hrows
    rw [bytes, length_flatMap_of_length hparts]
    omega
  have hcount : ((right : Int) - left).toNat = right - left := by omega
  -- the row is cut out of those around it
  have hdrop : rows.bytes.drop (4 * width * y) =
      rowBytes rows[y] ++ Canvas.bytes (rows.drop (y + 1)) := by
    rw [bytes, drop_flatMap_mul hparts, List.drop_eq_getElem_cons hy, List.flatMap_cons, bytes]
  have htake : rows.bytes.take (4 * width * y) = Canvas.bytes (rows.take y) :=
    take_flatMap_mul hparts y
  have hmodify : Canvas.bytes (rows.modify y (fillSpan left right p)) =
      Canvas.bytes (rows.take y) ++
        (rowBytes (fillSpan left right p rows[y]) ++ Canvas.bytes (rows.drop (y + 1))) := by
    rw [List.modify_eq_take_cons_drop hy, bytes, List.flatMap_append, List.flatMap_cons, bytes,
      bytes]
  rw [Raster.fillRow, hindex, hindex, overwrite_natCast (by omega) hfits, hcount, List.take_add,
    ← List.drop_drop, htake, hdrop, List.take_append_of_le_length (by omega),
    List.drop_append_of_le_length (by omega), hmodify, rowBytes_fillSpan]
  simp only [List.append_assoc]

/-! ## Records -/

/-- Changes `count` rows from the one at `first`. -/
def band (first count : Nat) (f : List Pixel → List Pixel) (rows : Canvas) : Canvas :=
  rows.mapIdx fun y row => if first ≤ y ∧ y < first + count then f row else row

theorem hasWidth_band {first count : Nat} {f : List Pixel → List Pixel} (h : HasWidth rows width)
    (hf : ∀ row, row.length = width → (f row).length = width) :
    HasWidth (band first count f rows) width := by
  intro row hrow
  obtain ⟨y, hy, rfl⟩ := List.mem_mapIdx.mp hrow
  have hlength := h _ (List.getElem_mem hy)
  split
  · exact hf _ hlength
  · exact hlength

theorem band_zero (first : Nat) (f : List Pixel → List Pixel) (rows : Canvas) :
    band first 0 f rows = rows := by
  refine List.ext_getElem? fun y => ?_
  rw [band, List.getElem?_mapIdx]
  cases rows[y]? with
  | none => rfl
  | some row => rw [Option.map_some, if_neg (by omega)]

theorem band_succ (first count : Nat) (f : List Pixel → List Pixel) (rows : Canvas) :
    band first (count + 1) f rows = (band first count f rows).modify (first + count) f := by
  refine List.ext_getElem? fun y => ?_
  rw [List.getElem?_modify, band, band, List.getElem?_mapIdx, List.getElem?_mapIdx]
  cases rows[y]? with
  | none => rfl
  | some row =>
    simp only [Option.map_some, Option.map_eq_map]
    by_cases hy : first + count = y
    · simp only [if_pos hy]
      rw [if_pos (by omega), if_neg (by omega)]
    · have hbelow : (first ≤ y ∧ y < first + (count + 1)) ↔ first ≤ y ∧ y < first + count := by
        omega
      simp only [if_neg hy, hbelow]

/-- Row after row, the slices of a rectangle are filled. -/
theorem foldl_fillRow_bytes (h : HasWidth rows width) (hle : left ≤ right) (hright : right ≤ width)
    (first count : Nat) (hcount : ∀ k < count, first + k < rows.length) :
    ((List.range count).map fun k : Nat => ((first : Int) + k)).foldl
        (Raster.fillRow width left right p.toList) rows.bytes =
      (band first count (fillSpan left right p) rows).bytes := by
  induction count with
  | zero =>
    rw [band_zero]
    rfl
  | succ count ih =>
    have hwidth : HasWidth (band first count (fillSpan left right p) rows) width :=
      hasWidth_band h fun row hrow => (length_fillSpan hle (hrow ▸ hright)).trans hrow
    have hlength : (band first count (fillSpan left right p) rows).length = rows.length :=
      List.length_mapIdx
    have hlast : first + count < rows.length := hcount count (Nat.lt_succ_self count)
    rw [List.range_succ, List.map_append, List.foldl_append,
      ih fun k hk => hcount k (Nat.lt_succ_of_lt hk), band_succ]
    exact fillRow_bytes hwidth (hlength ▸ hlast) hle hright

/-- What a rectangle covers of a canvas is a span in some rows after one another. -/
theorem fill_eq_band (h : HasWidth rows width) {top bottom : Nat} (hle : left ≤ right)
    (hright : right ≤ width)
    (hcovers : ∀ x y : Nat, x < width → y < rows.length →
      (a.Covers x y ↔ (left ≤ x ∧ x < right) ∧ top ≤ y ∧ y < bottom)) :
    fill a p rows = band top (bottom - top) (fillSpan left right p) rows := by
  refine List.ext_getElem? fun y => ?_
  rw [fill, band, List.getElem?_mapIdx, List.getElem?_mapIdx]
  cases hrow : rows[y]? with
  | none => rfl
  | some row =>
    obtain ⟨hy, rfl⟩ := List.getElem?_eq_some_iff.mp hrow
    have hlength : rows[y].length = width := h _ (List.getElem_mem hy)
    rw [Option.map_some, Option.map_some]
    congr 1
    refine List.ext_getElem? fun x => ?_
    rw [List.getElem?_mapIdx]
    by_cases hband : top ≤ y ∧ y < top + (bottom - top)
    · rw [if_pos hband, getElem?_fillSpan hle (hlength ▸ hright)]
      cases hcell : rows[y][x]? with
      | none =>
        rw [List.getElem?_eq_none_iff] at hcell
        rw [if_neg (by omega), Option.map_none]
      | some q =>
        have hx := (List.getElem?_eq_some_iff.mp hcell).1
        have hspan : a.Covers x y ↔ left ≤ x ∧ x < right := by
          rw [hcovers x y (by omega) hy]
          omega
        simp only [Option.map_some, hspan]
        split <;> rfl
    · rw [if_neg hband]
      cases hcell : rows[y][x]? with
      | none => rfl
      | some q =>
        have hx := (List.getElem?_eq_some_iff.mp hcell).1
        rw [Option.map_some, if_neg]
        rw [hcovers x y (by omega) hy]
        omega

theorem fill_eq_self (h : HasWidth rows width)
    (hcovers : ∀ x y : Nat, x < width → y < rows.length → ¬ a.Covers x y) :
    fill a p rows = rows := by
  have hband : fill a p rows = band 0 (0 - 0) (fillSpan 0 0 p) rows :=
    fill_eq_band h (Nat.le_refl 0) (Nat.zero_le width) fun x y hx hy =>
      ⟨fun hc => (hcovers x y hx hy hc).elim, fun hnone => by omega⟩
  rw [hband, band_zero]

theorem color_toList (c : Rgba) :
    Raster.color c.toList = c.pixel?.elim (.error .badChannel) fun p => .ok p.toList := by
  simp only [Raster.color, Rgba.toList, Rgba.pixel?, List.mapM_cons, List.mapM_nil]
  cases channelByte? c.red with
  | none => rfl
  | some red =>
    cases channelByte? c.green with
    | none => rfl
    | some green =>
      cases channelByte? c.blue with
      | none => rfl
      | some blue => cases channelByte? c.alpha <;> rfl

/-- Painting a record on the bytes of a canvas is painting it on the canvas. -/
theorem paint_toList (h : HasWidth rows width) (r : Record) :
    Raster.paint width rows.length rows.bytes r.toList =
      r.rgba.pixel?.elim (.error .badChannel) fun p => .ok (fill r.area p rows).bytes := by
  obtain ⟨code, ⟨x, y, w, k⟩, c⟩ := r
  show (Raster.color c.toList >>= _) = _
  rw [color_toList]
  cases c.pixel? with
  | none => rfl
  | some p =>
    simp only [Option.elim_some, except_ok_bind]
    split
    · rename_i hempty
      rw [fill_eq_self h]
      · rfl
      · intro px py _ _
        simp only [Area.Covers]
        omega
    · rename_i hspan
      obtain ⟨left, hleft⟩ : ∃ left : Nat, max x 0 = left := ⟨(max x 0).toNat, by omega⟩
      obtain ⟨right, hright⟩ : ∃ right : Nat, min (x + w) width = right :=
        ⟨(min (x + w) width).toNat, by omega⟩
      obtain ⟨top, htop⟩ : ∃ top : Nat, max y 0 = top := ⟨(max y 0).toNat, by omega⟩
      obtain ⟨bottom, hbottom⟩ : ∃ bottom : Nat, (min (y + k) rows.length).toNat = bottom :=
        ⟨_, rfl⟩
      have hcount : (min (y + k) rows.length - top).toNat = bottom - top := by omega
      rw [hleft, hright, htop, hcount,
        foldl_fillRow_bytes h (by omega) (by omega) top (bottom - top) (by omega),
        ← fill_eq_band (a := ⟨x, y, w, k⟩) h (by omega) (by omega)]
      · rfl
      · intro px py hx hy
        simp only [Area.Covers]
        omega

theorem records_flatMap (records : List Record) :
    Raster.records (records.flatMap Record.toList) = records.map Record.toList := by
  have hnine : ∀ r ∈ records, r.toList.length = 9 := fun r _ => r.length_toList
  have hcount : (9 * records.length + 8) / 9 = records.length := by omega
  rw [Raster.records, length_flatMap_of_length hnine, hcount]
  refine List.ext_getElem? fun k => ?_
  rw [List.getElem?_map, List.getElem?_map]
  by_cases hk : k < records.length
  · have hslice := take_drop_flatMap hnine k
    have hend : ((9 * k : Nat) : Int) + 9 = ((9 * k + 9 : Nat) : Int) := by omega
    rw [List.getElem?_eq_getElem hk] at hslice ⊢
    rw [List.getElem?_range' hk, Option.map_some, Nat.zero_add, hend, slice_natCast,
      Nat.add_sub_cancel_left, hslice]
    rfl
  · rw [List.getElem?_eq_none (by simpa using hk), List.getElem?_eq_none (by simpa using hk)]
    rfl

/-- Painting on bytes is painting on a canvas, whether it succeeds or not. -/
theorem paint_bytes (h : HasWidth rows width) (records : List Record) :
    (records.map Record.toList).reverse.foldlM (Raster.paint width rows.length) rows.bytes =
      Canvas.bytes <$> paint rows records := by
  rw [List.foldlM_reverse]
  induction records with
  | nil => rfl
  | cons r older ih =>
    rw [List.map_cons, List.foldrM_cons, ih, paint]
    cases hmid : paint rows older with
    | error e => rfl
    | ok mid =>
      obtain ⟨hwidth, hlength⟩ := size_of_paint hmid h
      show Raster.paint width rows.length mid.bytes r.toList = _
      rw [← hlength, paint_toList hwidth]
      cases r.rgba.pixel? <;> simp <;> rfl

theorem bytes_blank (width height : Nat) (p : Pixel) :
    (blank width height p).bytes = Raster.repeated (width * height) p.toList := by
  have hrow : rowBytes (List.replicate width p) = Raster.repeated width p.toList :=
    List.flatMap_replicate
  induction height with
  | zero => rfl
  | succ height ih =>
    rw [Raster.repeated] at ih ⊢
    rw [blank, List.replicate_succ, bytes, List.flatMap_cons, Nat.mul_succ, Nat.add_comm,
      ← List.replicate_append_replicate, List.flatten_append, ← ih, hrow]
    rfl

/-- The bytes of a cell stand where its point is. -/
theorem slice_bytes {x : Nat} (h : HasWidth rows width) (hx : x < width)
    (hcell : cell? rows x y = some p) :
    (rows.bytes.drop (4 * (y * width + x))).take 4 = p.toList := by
  obtain ⟨row, hrow, hcell⟩ := Option.bind_eq_some_iff.mp hcell
  obtain ⟨hy, rfl⟩ := List.getElem?_eq_some_iff.mp hrow
  have hlength : (rowBytes rows[y]).length = 4 * width :=
    length_rowBytes_of_mem h _ (List.getElem_mem hy)
  have hindex : 4 * (y * width + x) = 4 * width * y + 4 * x := by
    rw [Nat.mul_add, Nat.mul_comm y, Nat.mul_assoc]
  have hslice : ((rowBytes rows[y]).drop (4 * x)).take 4 = (rows[y][x]?.map Pixel.toList).getD [] :=
    take_drop_flatMap (fun q _ => q.length_toList) x
  rw [hcell] at hslice
  rw [hindex, ← List.drop_drop, bytes, drop_flatMap_mul (length_rowBytes_of_mem h),
    List.drop_eq_getElem_cons hy, List.flatMap_cons, List.drop_append_of_le_length (by omega),
    List.take_append_of_le_length (by rw [List.length_drop]; omega)]
  exact hslice

end Canvas

/-! ## Textures -/

/-- A pixel of a texture is the four bytes at its place. -/
theorem Texture.pixel_eq_ok_iff {t : Texture} {x y : Nat} {p : Pixel} (hx : x < t.width)
    (hy : y < t.height) :
    t.pixel x y = .ok p ↔ (t.bytes.drop (4 * (y * t.width + x))).take 4 = p.toList := by
  have hstart : ((y : Int) * t.width + x) * 4 = ((4 * (y * t.width + x) : Nat) : Int) := by
    push_cast
    exact Int.mul_comm _ _
  have hend : ((4 * (y * t.width + x) : Nat) : Int) + 4 =
      ((4 * (y * t.width + x) + 4 : Nat) : Int) := rfl
  simp only [pixel]
  rw [if_pos (by omega), hstart, hend, slice_natCast, Nat.add_sub_cancel_left]
  split
  · rename_i hslice
    rw [hslice]
    obtain ⟨red, green, blue, alpha⟩ := p
    simp [Pixel.toList]
  · rename_i hsplit
    refine ⟨fun h => (by cases h), fun h => ?_⟩
    exact (hsplit _ _ _ _ h).elim

namespace Image

variable {m : Image} {rs : List Record}

/-- The records of the draws, the newest first. -/
def records (m : Image) : List Record := m.draws.reverse.map Draw.record

/-- What an image shows at a point: the colour of the last draw there, or the background. -/
def colorAt (m : Image) (px py : Int) : Color :=
  ((m.draws.reverse.find? (·.shape.area.Covers px py)).map (·.color)).getD m.background

def InRange (m : Image) : Prop := m.background.InRange ∧ ∀ d ∈ m.draws, d.color.InRange

/-- A texture shows an image: it has its size, four bytes for each point, and at every point the
colour of the image there. -/
structure ShownBy (m : Image) (t : Texture) : Prop where
  width : t.width = m.width
  height : t.height = m.height
  bytes : t.bytes.length = 4 * (m.width * m.height)
  pixel : ∀ {px py : Int}, 0 ≤ px → px < m.width → 0 ≤ py → py < m.height →
    ∃ p, t.pixel px py = .ok p ∧ p.rgba = (m.colorAt px py).rgba

theorem layout_eq (m : Image) : m.layout = m.records.flatMap Record.toList := by
  rw [layout, records, List.flatMap_map]

/-- The records hold the draws in reverse, so the first one at a point is the last draw there. -/
theorem find?_records (m : Image) (x y : Int) :
    m.records.find? (·.area.Covers x y) =
      (m.draws.reverse.find? (·.shape.area.Covers x y)).map Draw.record := by
  rw [records, List.find?_map]
  rfl

/-- Rendering paints the records whose numbers are laid out, and fails where that fails. -/
theorem render_of_buffer (h : m.buffer? = some (rs.flatMap Record.toList)) :
    m.render = (do
      let background ← m.background.rgba.pixel?.elim (.error .badChannel) .ok
      let rows ← Canvas.paint (Canvas.blank m.width m.height background) rs
      return { width := m.width, height := m.height, bytes := rows.bytes }) := by
  rw [render, Canvas.color_toList, buffer, h]
  cases m.background.rgba.pixel? with
  | none => rfl
  | some p =>
    have hpaint := Canvas.paint_bytes (Canvas.hasWidth_blank m.width m.height p) rs
    rw [Canvas.length_blank, Canvas.bytes_blank] at hpaint
    simp only [Option.elim_some, except_ok_bind, Canvas.records_flatMap, hpaint]
    cases Canvas.paint (Canvas.blank m.width m.height p) rs <;> rfl

theorem InRange.exists_pixel (h : m.InRange) {blank p : Pixel} {x y : Int}
    (hblank : blank.rgba = m.background.rgba)
    (hp : (match m.records.find? (·.area.Covers x y) with
      | some r => r.rgba.pixel?
      | none => some blank) = some p) : p.rgba = (m.colorAt x y).rgba := by
  rw [find?_records] at hp
  rw [colorAt]
  cases hfind : m.draws.reverse.find? (·.shape.area.Covers x y) with
  | none =>
    rw [hfind] at hp
    cases hp
    exact hblank
  | some d =>
    rw [hfind] at hp
    have hd : d ∈ m.draws := List.mem_reverse.mp (List.mem_of_find?_eq_some hfind)
    obtain ⟨q, hq, hrgba⟩ := (h.2 d hd).exists_pixel
    cases hq.symm.trans hp
    exact hrgba

/-- An image whose own draws are laid out can be rendered. -/
theorem exists_render_of_layout (hbuffer : m.buffer? = some m.layout) (h : m.InRange) :
    ∃ t, m.render = .ok t ∧ m.ShownBy t := by
  obtain ⟨blank, hblank, hrgba⟩ := h.1.exists_pixel
  have hcolors : ∀ r ∈ m.records, ∃ p, r.rgba.pixel? = some p := by
    intro r hr
    obtain ⟨d, hd, rfl⟩ := List.mem_map.mp hr
    obtain ⟨p, hp, -⟩ := (h.2 d (List.mem_reverse.mp hd)).exists_pixel
    exact ⟨p, hp⟩
  obtain ⟨rows, hrows, hcells⟩ :=
    Canvas.paint_eq_ok hcolors (Canvas.blank m.width m.height blank)
  obtain ⟨hwidth, hlength⟩ :=
    Canvas.size_of_paint hrows (Canvas.hasWidth_blank m.width m.height blank)
  rw [Canvas.length_blank] at hlength
  refine ⟨⟨m.width, m.height, rows.bytes, false⟩, ?_, rfl, rfl, ?_, ?_⟩
  · rw [render_of_buffer (hbuffer.trans (congrArg some m.layout_eq)), hblank]
    simp only [Option.elim_some, except_ok_bind, hrows]
    rfl
  · rw [Canvas.length_bytes hwidth, hlength]
  · intro px py hx hxw hy hyh
    obtain ⟨x, rfl⟩ := Int.eq_ofNat_of_zero_le hx
    obtain ⟨y, rfl⟩ := Int.eq_ofNat_of_zero_le hy
    have hxw : x < m.width := Int.ofNat_lt.mp hxw
    have hyh : y < m.height := Int.ofNat_lt.mp hyh
    obtain ⟨p, hcell, hfind⟩ := hcells (Canvas.cell?_blank hxw hyh)
    exact ⟨p, (Texture.pixel_eq_ok_iff hxw hyh).mpr (Canvas.slice_bytes hwidth hxw hcell),
      h.exists_pixel hrgba hfind⟩

/-- A prepared image can be rendered. -/
theorem render_prepare (hbuffer : m.buffer? = none) (h : m.InRange) :
    ∃ t, m.prepare.render = .ok t ∧ m.ShownBy t := by
  have hprepare : m.prepare =
      { m with buffer? := some m.layout, prepareCount := m.prepareCount + 1 } := by
    rw [prepare, hbuffer]
  rw [hprepare]
  obtain ⟨t, ht, hshown⟩ := exists_render_of_layout
    (m := { m with buffer? := some m.layout, prepareCount := m.prepareCount + 1 }) rfl h
  exact ⟨t, ht, hshown.width, hshown.height, hshown.bytes, hshown.pixel⟩

end Image

end SpriteScript
