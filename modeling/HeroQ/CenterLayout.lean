/-
  The layout of the filter buttons: `CollectionViewCenterLayout`.

  The flow layout places the cells; this one centres each row.  A row is a maximal run of cells with
  the same vertical centre (`layout_rows`).  The attributes of the cells are objects that the flow
  layout may return again: centring what is centred changes nothing (`layout_again`).  Nothing is
  asked of the numbers but that their equality is symmetric and transitive, so they may round and
  have a NaN; where they are exact, the rows are centred (`layout_centred`).
-/
import HeroQ.Lib.Groups
import Mathlib.Data.List.DropRight
import Mathlib.Algebra.Order.Field.Basic
import Mathlib.Algebra.Order.Ring.Rat
import Mathlib.Tactic.Linarith
import Mathlib.Tactic.Ring

namespace HeroQ

/-- What the layout reads and writes of `UICollectionViewLayoutAttributes`: the `frame`. -/
structure LayoutAttributes (F : Type) where
  indexPath : ℕ
  x : F
  y : F
  width : F
  height : F
  deriving DecidableEq, Repr

/-- `CollectionViewRow` -/
structure CollectionViewRow (F : Type) where
  attributes : List (LayoutAttributes F) := []
  spacing : F

section
variable {F : Type} [Zero F] [IntCast F] [Add F] [Sub F] [Mul F] [Div F]

/-- `frame.midY` -/
def LayoutAttributes.midY (attr : LayoutAttributes F) : F :=
  attr.y + attr.height / (2 : ℤ)

namespace CollectionViewRow

/-- `add(attribute:)` -/
def add (attr : LayoutAttributes F) (row : CollectionViewRow F) : CollectionViewRow F :=
  { row with attributes := row.attributes ++ [attr] }

/-- `rowWidth` -/
def rowWidth (row : CollectionViewRow F) : F :=
  row.attributes.foldl (fun result attr => result + attr.width) 0 +
    ((row.attributes.length : ℤ) - 1 : ℤ) * row.spacing

/-- `centerLayout(collectionViewWidth:)` -/
def centerLayout (collectionViewWidth : F) (row : CollectionViewRow F) : CollectionViewRow F :=
  let padding := (collectionViewWidth - row.rowWidth) / (2 : ℤ)
  let (attributes, _) := row.attributes.foldl
    (fun (attributes, offset) attr =>
      (attributes ++ [{ attr with x := offset }], offset + (attr.width + row.spacing)))
    ([], padding)
  { row with attributes := attributes }

end CollectionViewRow

namespace UICollectionViewCenterLayout

variable [BEq F]

/-- The loop over the attributes: the rows so far, and `currentRowY`. -/
def addToRows (s : List (CollectionViewRow F) × F) (attr : LayoutAttributes F) :
    List (CollectionViewRow F) × F :=
  let (rows, currentRowY) := s
  let (rows, currentRowY) :=
    if currentRowY != attr.midY then (rows ++ [{ spacing := (10 : ℤ) }], attr.midY)
    else (rows, currentRowY)
  (rows.modifyLast (CollectionViewRow.add attr), currentRowY)

/-- `layoutAttributesForElements(in:)`, on the width of the collection view, if there is one, and on
    what the flow layout returns. -/
def layoutAttributesForElements (collectionViewWidth : Option F)
    (superAttributes : Option (List (LayoutAttributes F))) : Option (List (LayoutAttributes F)) :=
  match superAttributes with
  | none => none
  | some attributes =>
    let (rows, _) := attributes.foldl addToRows ([], ((-1 : ℤ) : F))
    let rows := rows.map (CollectionViewRow.centerLayout (collectionViewWidth.getD 0))
    some (rows.flatMap CollectionViewRow.attributes)

end UICollectionViewCenterLayout

end

open UICollectionViewCenterLayout

/-! ## One row -/

/-- What the layout leaves of the attributes: all but the place in the row. -/
def LayoutAttributes.erase {F : Type} [Zero F] (attr : LayoutAttributes F) : LayoutAttributes F :=
  { attr with x := 0 }

/-- The cells of a row, from the given offset on. -/
def placed {F : Type} [Add F] (spacing : F) :
    F → List (LayoutAttributes F) → List (LayoutAttributes F)
  | _, [] => []
  | offset, attr :: attributes =>
    { attr with x := offset } :: placed spacing (offset + (attr.width + spacing)) attributes

/-- Placing the cells changes only their places. -/
theorem map_erase_placed {F : Type} [Zero F] [Add F] (spacing : F) :
    ∀ (attributes : List (LayoutAttributes F)) (offset : F),
      (placed spacing offset attributes).map LayoutAttributes.erase =
        attributes.map LayoutAttributes.erase := by
  intro attributes
  induction attributes with
  | nil => intro offset; rfl
  | cons attr attributes ih =>
    intro offset
    rw [placed, List.map_cons, List.map_cons, ih]
    rfl

/-- The places that the cells had do not count. -/
theorem placed_erase {F : Type} [Zero F] [Add F] (spacing : F) :
    ∀ (attributes : List (LayoutAttributes F)) (offset : F),
      placed spacing offset (attributes.map LayoutAttributes.erase) =
        placed spacing offset attributes := by
  intro attributes
  induction attributes with
  | nil => intro offset; rfl
  | cons attr attributes ih =>
    intro offset
    rw [List.map_cons, placed, placed, ← ih]
    rfl

section
variable {F : Type} [Zero F] [IntCast F] [Add F] [Sub F] [Mul F] [Div F]

/-- The cells of a row, centred. -/
def centred (collectionViewWidth : F) (attributes : List (LayoutAttributes F)) :
    List (LayoutAttributes F) :=
  placed (10 : ℤ)
    ((collectionViewWidth - CollectionViewRow.rowWidth ⟨attributes, (10 : ℤ)⟩) / (2 : ℤ)) attributes

/-- `centerLayout` places the cells one by one. -/
theorem centerLayout_attributes (collectionViewWidth : F)
    (attributes : List (LayoutAttributes F)) :
    (CollectionViewRow.centerLayout collectionViewWidth ⟨attributes, (10 : ℤ)⟩).attributes =
      centred collectionViewWidth attributes := by
  have hloop : ∀ (attributes done : List (LayoutAttributes F)) (spacing offset : F),
      (attributes.foldl (fun (s : List (LayoutAttributes F) × F) attr =>
        (s.1 ++ [{ attr with x := s.2 }], s.2 + (attr.width + spacing))) (done, offset)).1 =
      done ++ placed spacing offset attributes := by
    intro attributes
    induction attributes with
    | nil => intro done spacing offset; simp [placed]
    | cons attr attributes ih =>
      intro done spacing offset
      rw [List.foldl_cons, ih, placed]
      simp
  exact hloop attributes [] _ _

theorem centred_erase (collectionViewWidth : F) (attributes : List (LayoutAttributes F)) :
    centred collectionViewWidth (attributes.map LayoutAttributes.erase) =
      centred collectionViewWidth attributes := by
  have hwidth : CollectionViewRow.rowWidth ⟨attributes.map LayoutAttributes.erase, (10 : ℤ)⟩ =
      CollectionViewRow.rowWidth ⟨attributes, ((10 : ℤ) : F)⟩ := by
    rw [CollectionViewRow.rowWidth, CollectionViewRow.rowWidth, List.foldl_map, List.length_map]
    rfl
  rw [centred, hwidth, placed_erase]
  rfl

theorem flatMap_centred_erase (collectionViewWidth : F) (rows : List (List (LayoutAttributes F))) :
    (rows.map (List.map LayoutAttributes.erase)).flatMap (centred collectionViewWidth) =
      rows.flatMap (centred collectionViewWidth) := by
  rw [List.flatMap_map]
  simp only [centred_erase]

theorem map_erase_flatMap_centred (collectionViewWidth : F)
    (rows : List (List (LayoutAttributes F))) :
    (rows.flatMap (centred collectionViewWidth)).map LayoutAttributes.erase =
      rows.flatten.map LayoutAttributes.erase := by
  induction rows with
  | nil => rfl
  | cons row rows ih =>
    rw [List.flatMap_cons, List.map_append, ih, List.flatten_cons, List.map_append, centred,
      map_erase_placed]

end

/-! ## All rows -/

section
variable {F : Type} [IntCast F] [Add F] [Div F] [BEq F]

/-- The attributes that are laid out: a cell whose vertical centre is at -1 has a row only if there
    is one above. -/
def laidOut (attributes : List (LayoutAttributes F)) : List (LayoutAttributes F) :=
  attributes.dropWhile fun attr => ((-1 : ℤ) : F) == attr.midY

/-- The cells have the same vertical centre. -/
def sameRow (a b : LayoutAttributes F) : Bool := a.midY == b.midY

/-- The rows: the maximal runs of cells with the same vertical centre. -/
def layoutRows (attributes : List (LayoutAttributes F)) : List (List (LayoutAttributes F)) :=
  (laidOut attributes).splitBy sameRow

theorem flatten_layoutRows (attributes : List (LayoutAttributes F)) :
    (layoutRows attributes).flatten = laidOut attributes := List.flatten_splitBy _ _

theorem layoutRows_laidOut (attributes : List (LayoutAttributes F)) :
    layoutRows (laidOut attributes) = layoutRows attributes := by
  rw [layoutRows, laidOut, laidOut, List.dropWhile_idempotent]
  rfl

/-- The rows of the code, from those of the library. -/
def ofGroups (s : List (List (LayoutAttributes F)) × F) : List (CollectionViewRow F) × F :=
  (s.1.map fun attributes => ⟨attributes, (10 : ℤ)⟩, s.2)

/-- One turn of the loop is one of the library. -/
theorem addToRows_ofGroups (s : List (List (LayoutAttributes F)) × F) (attr : LayoutAttributes F) :
    addToRows (ofGroups s) attr = ofGroups (Groups.step LayoutAttributes.midY s attr) := by
  obtain ⟨rows, currentRowY⟩ := s
  cases hkey : currentRowY == attr.midY with
  | false =>
    rw [Groups.step_new LayoutAttributes.midY hkey, addToRows, ofGroups]
    simp only [bne, hkey, Bool.not_false, if_true, List.modifyLast_concat]
    simp [ofGroups, CollectionViewRow.add]
  | true =>
    rw [addToRows, ofGroups]
    simp only [bne, hkey, Bool.not_true, Bool.false_eq_true, if_false]
    rcases rows.eq_nil_or_concat with rfl | ⟨rows, row, rfl⟩
    · simp only [Groups.step, bne, hkey, Bool.not_true, Bool.false_eq_true, if_false]
      rfl
    · rw [List.concat_eq_append, Groups.step_same LayoutAttributes.midY hkey, List.map_append,
        List.map_singleton, List.modifyLast_concat]
      simp [ofGroups, CollectionViewRow.add]

/-- The loop over the attributes is that of the library. -/
theorem foldl_addToRows (attributes : List (LayoutAttributes F))
    (s : List (List (LayoutAttributes F)) × F) :
    attributes.foldl addToRows (ofGroups s) =
      ofGroups (attributes.foldl (Groups.step LayoutAttributes.midY) s) :=
  List.foldl_hom ofGroups addToRows_ofGroups

variable [Zero F]

/-- The rows do not depend on the places that the cells had. -/
theorem layoutRows_erase (attributes : List (LayoutAttributes F)) :
    layoutRows (attributes.map LayoutAttributes.erase) =
      (layoutRows attributes).map (List.map LayoutAttributes.erase) := by
  rw [layoutRows, laidOut, List.dropWhile_map, Groups.splitBy_map]
  rfl

variable [Sub F] [Mul F] [PartialEquivBEq F]

theorem layoutAttributesForElements_eq (collectionViewWidth : Option F)
    (attributes : List (LayoutAttributes F)) :
    layoutAttributesForElements collectionViewWidth (some attributes) =
      some ((layoutRows attributes).flatMap (centred (collectionViewWidth.getD 0))) := by
  have hloop : attributes.foldl addToRows ([], ((-1 : ℤ) : F)) =
      ofGroups (attributes.foldl (Groups.step LayoutAttributes.midY) ([], ((-1 : ℤ) : F))) :=
    foldl_addToRows attributes ([], ((-1 : ℤ) : F))
  rw [layoutAttributesForElements, hloop]
  simp only [ofGroups, Groups.foldl_step, List.map_map, List.flatMap_map, Function.comp_def,
    centerLayout_attributes]
  rfl

/-- **What the layout does.**  It cuts the cells, less those at the front whose vertical centre is
    at -1, into rows, which are the maximal runs of cells with the same vertical centre, and centres
    each row.  It returns these cells in the order in which it got them, and changes nothing but
    their places in the rows. -/
theorem layout_rows (collectionViewWidth : Option F) (attributes : List (LayoutAttributes F)) :
    ∃ rows : List (List (LayoutAttributes F)),
      layoutAttributesForElements collectionViewWidth (some attributes) =
        some (rows.flatMap (centred (collectionViewWidth.getD 0))) ∧
      rows.flatten = laidOut attributes ∧
      (∀ row ∈ rows, row ≠ [] ∧ row.IsChain fun a b => sameRow a b = true) ∧
      (rows.IsChain fun row row' => ∃ h h', sameRow (row.getLast h) (row'.head h') = false) ∧
      (rows.flatMap (centred (collectionViewWidth.getD 0))).map LayoutAttributes.erase =
        (laidOut attributes).map LayoutAttributes.erase := by
  refine ⟨layoutRows attributes, layoutAttributesForElements_eq collectionViewWidth attributes,
    flatten_layoutRows attributes, fun row hrow => ⟨List.ne_nil_of_mem_splitBy hrow,
      List.isChain_of_mem_splitBy hrow⟩,
    List.isChain_getLast_head_splitBy sameRow _, ?_⟩
  rw [map_erase_flatMap_centred, flatten_layoutRows]

theorem layout_rows_three :
    let attributes : List (LayoutAttributes ℤ) :=
      [⟨0, 0, 0, 40, 30⟩, ⟨1, 0, 0, 50, 30⟩, ⟨2, 0, 40, 60, 30⟩]
    ∃ rows : List (List (LayoutAttributes ℤ)),
      layoutAttributesForElements (some 300) (some attributes) =
        some (rows.flatMap (centred 300)) ∧
      layoutAttributesForElements (some 300) (some attributes) =
        some [⟨0, 100, 0, 40, 30⟩, ⟨1, 150, 0, 50, 30⟩, ⟨2, 120, 40, 60, 30⟩] := by
  intro attributes
  obtain ⟨rows, hrows, -⟩ := layout_rows (some 300) attributes
  exact ⟨rows, hrows, by decide⟩

/-- **Laying out again** what is laid out already, in a view of whatever width, is laying out what
    the flow layout returned. -/
theorem layout_again (collectionViewWidth collectionViewWidth' : Option F)
    (superAttributes : Option (List (LayoutAttributes F))) :
    layoutAttributesForElements collectionViewWidth
        (layoutAttributesForElements collectionViewWidth' superAttributes) =
      layoutAttributesForElements collectionViewWidth superAttributes := by
  cases superAttributes with
  | none => rfl
  | some attributes =>
    rw [layoutAttributesForElements_eq collectionViewWidth', layoutAttributesForElements_eq,
      layoutAttributesForElements_eq]
    let out := (layoutRows attributes).flatMap (centred (collectionViewWidth'.getD 0))
    -- the rows are the same, but for the places of the cells
    have hrows : (layoutRows out).map (List.map LayoutAttributes.erase) =
        (layoutRows attributes).map (List.map LayoutAttributes.erase) := by
      rw [← layoutRows_erase, map_erase_flatMap_centred, flatten_layoutRows, layoutRows_erase,
        layoutRows_laidOut]
    rw [← flatMap_centred_erase, hrows, flatMap_centred_erase]

theorem layout_again_three :
    let attributes : List (LayoutAttributes ℤ) :=
      [⟨0, 0, 0, 40, 30⟩, ⟨1, 0, 0, 50, 30⟩, ⟨2, 0, 40, 60, 30⟩]
    layoutAttributesForElements (some 500)
        (layoutAttributesForElements (some 300) (some attributes)) =
      layoutAttributesForElements (some 500) (some attributes) :=
  layout_again (some 500) (some 300) (some _)

end

/-! ## Exact numbers -/

section
variable {F : Type} [Field F]

/-- The row is in the middle of the view, with gaps of 10 between its cells. -/
structure RowCentred (collectionViewWidth : F) (row : List (LayoutAttributes F)) : Prop where
  margins : ∀ first ∈ row.head?, ∀ last ∈ row.getLast?,
    first.x = collectionViewWidth - (last.x + last.width)
  gaps : row.IsChain fun a b => b.x = a.x + a.width + 10

theorem rowWidth_eq (spacing : F) (attributes : List (LayoutAttributes F)) :
    CollectionViewRow.rowWidth ⟨attributes, spacing⟩ =
      (attributes.map LayoutAttributes.width).sum + ((attributes.length : F) - 1) * spacing := by
  have hsum : ∀ (attributes : List (LayoutAttributes F)) (result : F),
      attributes.foldl (fun result attr => result + attr.width) result =
        result + (attributes.map LayoutAttributes.width).sum := by
    intro attributes
    induction attributes with
    | nil => intro result; simp
    | cons attr attributes ih => intro result; simp [ih, add_assoc]
  simp [CollectionViewRow.rowWidth, hsum]

/-- The right edge of the cells placed. -/
theorem placed_right (spacing : F) : ∀ (attributes : List (LayoutAttributes F)) (offset : F),
    ∀ last ∈ (placed spacing offset attributes).getLast?, last.x + last.width =
      offset + ((attributes.map LayoutAttributes.width).sum +
        ((attributes.length : F) - 1) * spacing) := by
  intro attributes
  induction attributes with
  | nil => intro offset last h; simp [placed] at h
  | cons attr attributes ih =>
    intro offset last hlast
    cases attributes with
    | nil =>
      obtain rfl : { attr with x := offset } = last := by simpa [placed] using hlast
      simp
    | cons attr' attributes =>
      have hright := ih (offset + (attr.width + spacing)) last (by
        rw [placed, placed, List.getLast?_cons_cons] at hlast
        rw [placed]
        exact hlast)
      rw [hright]
      simp only [List.map_cons, List.sum_cons, List.length_cons]
      push_cast
      ring

theorem placed_gaps (spacing : F) : ∀ (attributes : List (LayoutAttributes F)) (offset : F),
    (placed spacing offset attributes).IsChain fun a b => b.x = a.x + a.width + spacing := by
  intro attributes
  induction attributes with
  | nil => intro offset; exact .nil
  | cons attr attributes ih =>
    intro offset
    cases attributes with
    | nil => exact .singleton _
    | cons attr' attributes =>
      have hrest := ih (offset + (attr.width + spacing))
      rw [placed] at hrest
      rw [placed, placed]
      exact .cons_cons (add_assoc _ _ _).symm hrest

variable [LinearOrder F] [IsStrictOrderedRing F]

theorem le_of_mem_placed {spacing : F} (hspacing : 0 ≤ spacing) :
    ∀ {attributes : List (LayoutAttributes F)}, (∀ attr ∈ attributes, 0 ≤ attr.width) →
      ∀ offset, ∀ attr ∈ placed spacing offset attributes, offset ≤ attr.x := by
  intro attributes
  induction attributes with
  | nil => intro _ offset attr h; simp [placed] at h
  | cons attr attributes ih =>
    intro hwidth offset attr' hattr'
    rw [placed, List.mem_cons] at hattr'
    rcases hattr' with rfl | hattr'
    · exact le_rfl
    · have hrest := ih (fun a ha => hwidth a (List.mem_cons_of_mem _ ha)) _ attr' hattr'
      have hattr := hwidth attr List.mem_cons_self
      linarith

/-- Cells placed one after another do not overlap. -/
theorem placed_apart {spacing : F} (hspacing : 0 ≤ spacing) :
    ∀ {attributes : List (LayoutAttributes F)}, (∀ attr ∈ attributes, 0 ≤ attr.width) →
      ∀ offset, (placed spacing offset attributes).Pairwise fun a b =>
        a.x + a.width + spacing ≤ b.x := by
  intro attributes
  induction attributes with
  | nil => intro _ offset; exact .nil
  | cons attr attributes ih =>
    intro hwidth offset
    have hrest : ∀ a ∈ attributes, 0 ≤ a.width := fun a ha => hwidth a (List.mem_cons_of_mem _ ha)
    rw [placed]
    refine .cons (fun b hb => ?_) (ih hrest _)
    have hle := le_of_mem_placed hspacing hrest _ b hb
    show offset + attr.width + spacing ≤ b.x
    linarith

theorem rowCentred_centred (collectionViewWidth : F) (attributes : List (LayoutAttributes F)) :
    RowCentred collectionViewWidth (centred collectionViewWidth attributes) where
  margins first hfirst last hlast := by
    have hright := placed_right _ attributes _ last hlast
    cases attributes with
    | nil => simp [centred, placed] at hfirst
    | cons attr attributes =>
      obtain rfl : _ = first := Option.some.inj hfirst
      rw [hright, ← rowWidth_eq]
      push_cast
      ring
  gaps := by
    have hgaps := placed_gaps ((10 : ℤ) : F) attributes
      ((collectionViewWidth - CollectionViewRow.rowWidth ⟨attributes, (10 : ℤ)⟩) / (2 : ℤ))
    simpa [centred] using hgaps

/-- **Where the numbers are exact, every row is centred**: its margins are equal, its cells are 10
    apart, and cells do not overlap. -/
theorem layout_centred (collectionViewWidth : F) (attributes : List (LayoutAttributes F)) :
    layoutAttributesForElements (some collectionViewWidth) (some attributes) =
        some ((layoutRows attributes).map (centred collectionViewWidth)).flatten ∧
      ∀ cells ∈ layoutRows attributes,
        RowCentred collectionViewWidth (centred collectionViewWidth cells) ∧
        ((∀ attr ∈ cells, 0 ≤ attr.width) →
          (centred collectionViewWidth cells).Pairwise fun a b => a.x + a.width + 10 ≤ b.x) := by
  refine ⟨?_, fun cells _ => ⟨rowCentred_centred collectionViewWidth cells, fun hwidth => ?_⟩⟩
  · rw [layoutAttributesForElements_eq, List.flatMap_def]
    rfl
  · have hapart := placed_apart (show (0 : F) ≤ (10 : ℤ) by norm_num) hwidth
      ((collectionViewWidth - CollectionViewRow.rowWidth ⟨cells, (10 : ℤ)⟩) / (2 : ℤ))
    simpa [centred] using hapart

theorem layout_centred_three :
    let attributes : List (LayoutAttributes ℚ) :=
      [⟨0, 0, 0, 40, 30⟩, ⟨1, 0, 0, 50, 30⟩, ⟨2, 0, 40, 60, 30⟩]
    let row : List (LayoutAttributes ℚ) := [⟨0, 0, 0, 40, 30⟩, ⟨1, 0, 0, 50, 30⟩]
    row ∈ layoutRows attributes ∧ RowCentred 300 (centred 300 row) ∧
      (centred 300 row).Pairwise fun a b => a.x + a.width + 10 ≤ b.x := by
  intro attributes row
  have hrow : row ∈ layoutRows attributes := by decide +kernel
  obtain ⟨hcentred, hapart⟩ := (layout_centred (300 : ℚ) attributes).2 row hrow
  exact ⟨hrow, hcentred, hapart (by decide)⟩

end

end HeroQ
