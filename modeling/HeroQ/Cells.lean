/-
  The cells of the grid.

  A cell that leaves the screen is set up again for another hero while Kingfisher may still be
  retrieving the image of the one before.  Every `setImage` gives the image view a new identifier,
  and the handler of a retrieval does nothing unless the image view still has its identifier.  So
  in whatever order the retrievals end, a cell on screen shows the name of the hero that a tap on it
  opens, and the image that was retrieved when the cell was set up for that hero
  (`cells_show_items`).
-/
import HeroQ.Screens

namespace HeroQ

variable {URL : Type}

/-! ## The cells -/

/-- An image, and where it was retrieved from. -/
structure RetrievedImage (URL : Type) where
  source : URL
  data : ℕ
  deriving DecidableEq

/-- `UIImageView`, with what Kingfisher associates with it. -/
structure ImageView (URL : Type) where
  image : Option (RetrievedImage URL) := none
  taskIdentifier : Option ℕ := none
  deriving DecidableEq

/-- `setImage(with:)` without options, up to the call of the manager: as there is no placeholder,
    the image goes. -/
def ImageView.setImage (source : Option URL) (issuedIdentifier : ℕ) : ImageView URL :=
  match source with
  | none => { image := none, taskIdentifier := none }
  | some _ => { image := none, taskIdentifier := some issuedIdentifier }

/-- The handler that `setImage(with:)` gives to the manager. -/
def ImageView.retrieved (issuedIdentifier : ℕ) (result : Option (RetrievedImage URL))
    (view : ImageView URL) : ImageView URL :=
  if view.taskIdentifier = some issuedIdentifier then
    let view := { view with taskIdentifier := none }
    match result with
    | some value => { view with image := some value }
    | none => view
  else view

/-- `ImageCollectionViewCell`: its image view and the text of its title. -/
structure ImageCollectionViewCell (URL : Type) where
  imageView : ImageView URL := {}
  titleLabel : Option String := none
  deriving DecidableEq

/-- `setupView` of `ImageCollectionViewCell` -/
def ImageCollectionViewCell.setupView (imageURL : URL) (title : String) (issuedIdentifier : ℕ) :
    ImageCollectionViewCell URL where
  imageView := .setImage (some imageURL) issuedIdentifier
  titleLabel := some title

/-! ## The grid -/

/-- A retrieval that the manager has not ended, of the image of a cell. -/
structure Retrieval (URL : Type) where
  cell : ℕ
  issuedIdentifier : ℕ
  source : URL
  deriving DecidableEq

/-- The retrieval that was issued last for the cell, which is when it was last set up. -/
def lastIssued (issued : List (Retrieval URL)) (cell : ℕ) : Option (Retrieval URL) :=
  (issued.filter (·.cell = cell)).getLast?

/-- The grid with its cells, some of which are on screen, each in a row. -/
structure ImageGrid (URL : Type) where
  items : Option (List Hero) := none
  cells : ℕ → ImageCollectionViewCell URL := fun _ => {}
  visible : List (ℕ × ℕ) := []
  retrievals : List (Retrieval URL) := []
  /-- all retrievals so far -/
  issued : List (Retrieval URL) := []
  /-- `Source.Identifier.current` -/
  current : ℕ := 0
  trapped : Bool := false

/-- The events of the grid. -/
inductive GridEvent where
  /-- `items` is set, and the collection view reloads its data -/
  | items (heroes : Option (List Hero))
  /-- the collection view asks for the cell of a row and dequeues one that is not on screen -/
  | cellForItemAt (row cell : ℕ)
  | didEndDisplaying (row : ℕ)
  /-- a retrieval ends, with the data of the image or with a failure -/
  | retrieved (issuedIdentifier : ℕ) (result : Option ℕ)
  /-- an image view that is not in the grid is given an identifier -/
  | setImageElsewhere
  deriving DecidableEq

namespace ImageGrid

variable (urlOfString : String → Option URL)

/-- `collectionView(_:numberOfItemsInSection:)` -/
def numberOfItemsInSection (s : ImageGrid URL) : ℕ := (s.items.map List.length).getD 0

/-- `collectionView(_:cellForItemAt:)`, with the cell that is dequeued; unwrapping the address of an
    image that is nil traps. -/
def cellForItemAt (row cell : ℕ) (s : ImageGrid URL) : ImageGrid URL :=
  match s.items with
  | some items =>
    if items.length > row then
      match items[row]? with
      | some hero =>
        match hero.imageURL urlOfString with
        | some imageURL =>
          let issuedIdentifier := s.current + 1
          { s with
            cells := Function.update s.cells cell
              (.setupView imageURL hero.localizedName issuedIdentifier)
            visible := s.visible ++ [(row, cell)]
            retrievals := s.retrievals ++ [⟨cell, issuedIdentifier, imageURL⟩]
            issued := s.issued ++ [⟨cell, issuedIdentifier, imageURL⟩]
            current := issuedIdentifier }
        | none => { s with trapped := true }
      | none => s
    else { s with visible := s.visible ++ [(row, cell)] }
  | none => { s with visible := s.visible ++ [(row, cell)] }

/-- The end of a retrieval. -/
def retrieved (retrieval : Retrieval URL) (result : Option ℕ) (s : ImageGrid URL) :
    ImageGrid URL :=
  let cell := s.cells retrieval.cell
  let imageView := cell.imageView.retrieved retrieval.issuedIdentifier
    (result.map fun data => ⟨retrieval.source, data⟩)
  { s with
    cells := Function.update s.cells retrieval.cell { cell with imageView := imageView }
    retrievals := s.retrievals.filter (·.issuedIdentifier ≠ retrieval.issuedIdentifier) }

/-- One event. -/
def step (s : ImageGrid URL) (e : GridEvent) : Option (ImageGrid URL) :=
  if s.trapped then none
  else match e with
    | .items heroes => some { s with items := heroes, visible := [] }
    | .cellForItemAt row cell =>
      if row < s.numberOfItemsInSection ∧ cell ∉ s.visible.map Prod.snd then
        some (s.cellForItemAt urlOfString row cell)
      else none
    | .didEndDisplaying row => some { s with visible := s.visible.filter (·.1 ≠ row) }
    | .retrieved issuedIdentifier result =>
      (s.retrievals.find? (·.issuedIdentifier = issuedIdentifier)).map fun retrieval =>
        s.retrieved retrieval result
    | .setImageElsewhere => some { s with current := s.current + 1 }

end ImageGrid

variable {urlOfString : String → Option URL}

/-! ## What the cells show -/

/-- The cell has been set up with the title and the source, and the retrieval issued then goes on,
    or has ended with what the cell shows. -/
def Displays (past : List GridEvent) (retrievals : List (Retrieval URL))
    (last : Option (Retrieval URL)) (cell : ℕ) (view : ImageCollectionViewCell URL) (source : URL)
    (title : String) : Prop :=
  view.titleLabel = some title ∧
    ∃ issuedIdentifier, last = some ⟨cell, issuedIdentifier, source⟩ ∧
      ((view.imageView = ⟨none, some issuedIdentifier⟩ ∧
          ⟨cell, issuedIdentifier, source⟩ ∈ retrievals) ∨
        ∃ result, .retrieved issuedIdentifier result ∈ past ∧
          view.imageView = ⟨result.map fun data => ⟨source, data⟩, none⟩)

theorem Displays.mono {past past' : List GridEvent} {retrievals retrievals' : List (Retrieval URL)}
    {last : Option (Retrieval URL)} {cell : ℕ} {view : ImageCollectionViewCell URL} {source : URL}
    {title : String} (h : Displays past retrievals last cell view source title)
    (hpast : past ⊆ past')
    (hretrievals : ∀ issuedIdentifier, view.imageView.taskIdentifier = some issuedIdentifier →
      ⟨cell, issuedIdentifier, source⟩ ∈ retrievals →
        ⟨cell, issuedIdentifier, source⟩ ∈ retrievals') :
    Displays past' retrievals' last cell view source title := by
  obtain ⟨htitle, id, hlast, ⟨hview, hmem⟩ | ⟨result, hmem, hview⟩⟩ := h
  · exact ⟨htitle, id, hlast, Or.inl ⟨hview, hretrievals id (by rw [hview]) hmem⟩⟩
  · exact ⟨htitle, id, hlast, Or.inr ⟨result, hpast hmem, hview⟩⟩

/-- No two retrievals have the same identifier, no cell is on screen twice, and every cell on screen
    displays the hero of its row. -/
structure CellsSound (urlOfString : String → Option URL) (past : List GridEvent)
    (s : ImageGrid URL) : Prop where
  identifiers : (s.retrievals.map Retrieval.issuedIdentifier).Nodup
  current : ∀ retrieval ∈ s.retrievals, retrieval.issuedIdentifier ≤ s.current
  cells : (s.visible.map Prod.snd).Nodup
  displays : ∀ row cell, (row, cell) ∈ s.visible → ∃ hero source,
    GridCollectionViewCell.didSelectItemAt s.items row = some hero ∧
      hero.imageURL urlOfString = some source ∧
      Displays past s.retrievals (lastIssued s.issued cell) cell (s.cells cell) source
        hero.localizedName

theorem CellsSound.displays_snoc {past : List GridEvent} {s : ImageGrid URL}
    (h : CellsSound urlOfString past s) (e : GridEvent) : ∀ row cell, (row, cell) ∈ s.visible →
      ∃ hero source, GridCollectionViewCell.didSelectItemAt s.items row = some hero ∧
        hero.imageURL urlOfString = some source ∧
        Displays (past ++ [e]) s.retrievals (lastIssued s.issued cell) cell (s.cells cell) source
          hero.localizedName := by
  intro row cell hvisible
  obtain ⟨hero, source, hhero, hsource, hold⟩ := h.displays row cell hvisible
  exact ⟨hero, source, hhero, hsource, hold.mono (List.subset_append_left ..) fun _ _ hid => hid⟩

/-- The handler does nothing to a view that has another identifier. -/
theorem ImageView.retrieved_of_ne {view : ImageView URL} {issuedIdentifier : ℕ}
    (h : view.taskIdentifier ≠ some issuedIdentifier) (result : Option (RetrievedImage URL)) :
    view.retrieved issuedIdentifier result = view := if_neg h

theorem ImageView.retrieved_ended (issuedIdentifier : ℕ)
    (image result : Option (RetrievedImage URL)) :
    ImageView.retrieved issuedIdentifier result ⟨image, none⟩ = ⟨image, none⟩ :=
  if_neg (by simp)

theorem ImageView.retrieved_self (issuedIdentifier : ℕ) (result : Option (RetrievedImage URL)) :
    ImageView.retrieved issuedIdentifier result ⟨none, some issuedIdentifier⟩ = ⟨result, none⟩ := by
  rw [ImageView.retrieved, if_pos rfl]
  cases result <;> rfl

/-- A row below the number of items has a hero, whose image address may be nil. -/
theorem cellForItemAt_cases (urlOfString : String → Option URL) {s : ImageGrid URL} {row : ℕ}
    (cell : ℕ) (hrow : row < s.numberOfItemsInSection) :
    ∃ hero, GridCollectionViewCell.didSelectItemAt s.items row = some hero ∧
      ((hero.imageURL urlOfString = none ∧
          s.cellForItemAt urlOfString row cell = { s with trapped := true }) ∨
        ∃ source, hero.imageURL urlOfString = some source ∧
          s.cellForItemAt urlOfString row cell =
            { s with
              cells := Function.update s.cells cell
                (.setupView source hero.localizedName (s.current + 1))
              visible := s.visible ++ [(row, cell)]
              retrievals := s.retrievals ++ [⟨cell, s.current + 1, source⟩]
              issued := s.issued ++ [⟨cell, s.current + 1, source⟩]
              current := s.current + 1 }) := by
  cases hitems : s.items with
  | none => simp [ImageGrid.numberOfItemsInSection, hitems] at hrow
  | some items =>
    rw [ImageGrid.numberOfItemsInSection, hitems, Option.map_some, Option.getD_some] at hrow
    have hget := List.getElem?_eq_getElem hrow
    refine ⟨items[row], (if_pos hrow).trans hget, ?_⟩
    rw [ImageGrid.cellForItemAt, hitems]
    simp only [gt_iff_lt, if_pos hrow, hget]
    cases items[row].imageURL urlOfString with
    | none => exact Or.inl ⟨rfl, rfl⟩
    | some source => exact Or.inr ⟨source, rfl, rfl⟩

theorem lastIssued_concat_self (issued : List (Retrieval URL)) (retrieval : Retrieval URL) :
    lastIssued (issued ++ [retrieval]) retrieval.cell = some retrieval := by
  simp [lastIssued, List.filter_append]

theorem lastIssued_concat_of_ne (issued : List (Retrieval URL)) (retrieval : Retrieval URL)
    {cell : ℕ} (h : retrieval.cell ≠ cell) :
    lastIssued (issued ++ [retrieval]) cell = lastIssued issued cell := by
  simp [lastIssued, List.filter_append, h]

/-- A cell that is set up displays its hero, and the others go on. -/
theorem cellsSound_cellForItemAt {past : List GridEvent} {s : ImageGrid URL}
    (h : CellsSound urlOfString past s) {row cell : ℕ}
    (hrow : row < s.numberOfItemsInSection) (hcell : cell ∉ s.visible.map Prod.snd) :
    CellsSound urlOfString (past ++ [.cellForItemAt row cell])
      (s.cellForItemAt urlOfString row cell) := by
  have hdisplays := h.displays_snoc (.cellForItemAt row cell)
  obtain ⟨hero, hhero, ⟨_, heq⟩ | ⟨source, hsource, heq⟩⟩ :=
    cellForItemAt_cases urlOfString cell hrow
  · rw [heq]
    exact ⟨h.identifiers, h.current, h.cells, hdisplays⟩
  · rw [heq]
    refine ⟨?_, ?_, ?_, ?_⟩
    · rw [List.map_append, List.nodup_append]
      refine ⟨h.identifiers, List.nodup_singleton _, ?_⟩
      simp only [List.mem_map, List.map_cons, List.map_nil, List.mem_singleton]
      rintro _ ⟨retrieval, hmem, rfl⟩ _ rfl
      exact (Nat.lt_succ_of_le (h.current retrieval hmem)).ne
    · intro retrieval hmem
      rcases List.mem_append.1 hmem with hold | hnew
      · exact (h.current retrieval hold).trans (Nat.le_succ _)
      · rw [List.mem_singleton.1 hnew]
    · rw [List.map_append, List.map_singleton, ← List.concat_eq_append]
      exact List.Nodup.concat hcell h.cells
    · intro row' cell' hvisible
      rcases List.mem_append.1 hvisible with hold | hnew
      · obtain ⟨hero', source', hhero', hsource', hcell'⟩ := hdisplays row' cell' hold
        have hne : cell' ≠ cell := fun heq => hcell (heq ▸ List.mem_map_of_mem hold)
        refine ⟨hero', source', hhero', hsource', ?_⟩
        have hlast := lastIssued_concat_of_ne s.issued ⟨cell, s.current + 1, source⟩ hne.symm
        simp only [Function.update_of_ne hne, hlast]
        exact hcell'.mono (List.Subset.refl _) fun _ _ hid => List.mem_append_left _ hid
      · obtain ⟨rfl, rfl⟩ := Prod.mk.inj (List.mem_singleton.1 hnew)
        refine ⟨hero, source, hhero, hsource, ?_⟩
        simp only [Function.update_self]
        exact ⟨rfl, s.current + 1, lastIssued_concat_self .., Or.inl
          ⟨rfl, List.mem_append_right _ (by simp)⟩⟩

/-- A retrieval that ends changes its own cell only, and that only if it is the last one. -/
theorem cellsSound_retrieved {past : List GridEvent} {s : ImageGrid URL}
    (h : CellsSound urlOfString past s) {retrieval : Retrieval URL}
    (hmem : retrieval ∈ s.retrievals) (result : Option ℕ) :
    CellsSound urlOfString (past ++ [.retrieved retrieval.issuedIdentifier result])
      (s.retrieved retrieval result) := by
  have hinj : ∀ retrieval' ∈ s.retrievals,
      retrieval'.issuedIdentifier = retrieval.issuedIdentifier → retrieval' = retrieval :=
    fun retrieval' hmem' heq => List.inj_on_of_nodup_map h.identifiers hmem' hmem heq
  refine ⟨h.identifiers.sublist (List.filter_sublist.map _), ?_, h.cells, ?_⟩
  · exact fun retrieval' hmem' => h.current _ (List.mem_of_mem_filter hmem')
  · intro row cell hvisible
    obtain ⟨hero, source, hhero, hsource, hdisplays⟩ := h.displays row cell hvisible
    refine ⟨hero, source, hhero, hsource, ?_⟩
    by_cases hcell : cell = retrieval.cell
    · subst hcell
      have hview : (s.retrieved retrieval result).cells retrieval.cell =
          { s.cells retrieval.cell with
            imageView := (s.cells retrieval.cell).imageView.retrieved retrieval.issuedIdentifier
              (result.map fun data => ⟨retrieval.source, data⟩) } := Function.update_self ..
      rw [hview]
      obtain ⟨htitle, id, hlast, ⟨himage, hid⟩ | ⟨result', hpast, himage⟩⟩ := hdisplays
      · refine ⟨htitle, id, hlast, ?_⟩
        by_cases heq : id = retrieval.issuedIdentifier
        · subst heq
          obtain rfl : source = retrieval.source := congrArg Retrieval.source (hinj _ hid rfl)
          refine Or.inr ⟨result, List.mem_append_right _ (by simp), ?_⟩
          rw [himage]
          exact ImageView.retrieved_self ..
        · refine Or.inl ⟨?_, List.mem_filter.2 ⟨hid, by simpa using heq⟩⟩
          rw [himage]
          exact ImageView.retrieved_of_ne (by simpa using heq) _
      · refine ⟨htitle, id, hlast, Or.inr ⟨result', List.mem_append_left _ hpast, ?_⟩⟩
        simp only [himage, ImageView.retrieved_ended]
    · have hview : (s.retrieved retrieval result).cells cell = s.cells cell :=
        Function.update_of_ne hcell ..
      rw [hview]
      refine hdisplays.mono (List.subset_append_left ..) fun id _ hid => ?_
      refine List.mem_filter.2 ⟨hid, ?_⟩
      rw [decide_eq_true_iff]
      exact fun heq => hcell (congrArg Retrieval.cell (hinj _ hid heq))

theorem cellsSound_step {past : List GridEvent} {s s' : ImageGrid URL} {e : GridEvent}
    (h : CellsSound urlOfString past s) (hstep : s.step urlOfString e = some s') :
    CellsSound urlOfString (past ++ [e]) s' := by
  rw [ImageGrid.step.eq_def] at hstep
  split_ifs at hstep
  have hdisplays := h.displays_snoc e
  cases e with
  | items heroes =>
    cases hstep
    exact ⟨h.identifiers, h.current, List.nodup_nil, fun _ _ hmem => by cases hmem⟩
  | cellForItemAt row cell =>
    simp only at hstep
    split_ifs at hstep with hcond
    cases hstep
    exact cellsSound_cellForItemAt h hcond.1 hcond.2
  | didEndDisplaying row =>
    cases hstep
    exact ⟨h.identifiers, h.current, h.cells.sublist (List.filter_sublist.map _),
      fun row cell hmem => hdisplays row cell (List.mem_of_mem_filter hmem)⟩
  | retrieved issuedIdentifier result =>
    obtain ⟨retrieval, hfind, rfl⟩ := Option.map_eq_some_iff.1 hstep
    obtain rfl : retrieval.issuedIdentifier = issuedIdentifier := by
      simpa using List.find?_some hfind
    exact cellsSound_retrieved h (List.mem_of_find?_eq_some hfind) result
  | setImageElsewhere =>
    cases hstep
    have hcurrent := fun retrieval hmem => (h.current retrieval hmem).trans (Nat.le_succ _)
    exact ⟨h.identifiers, hcurrent, h.cells, hdisplays⟩

theorem cellsSound_initial : CellsSound urlOfString [] {} where
  identifiers := List.nodup_nil
  current _ h := absurd h List.not_mem_nil
  cells := List.nodup_nil
  displays _ _ h := absurd h List.not_mem_nil

/-- **A cell on screen shows the hero that a tap on it opens.**  However cells are reused and in
    whatever order the retrievals end: its title is the name of the hero of its row, and when the
    cell was last set up, a retrieval was issued of that hero's image, which goes on, and the image
    is empty, or has ended with what the image is now. -/
theorem cells_show_items (urlOfString : String → Option URL) {es : List GridEvent}
    {s : ImageGrid URL} (hrun : Runs.run (ImageGrid.step urlOfString) {} es = some s)
    {row cell : ℕ} (hvisible : (row, cell) ∈ s.visible) :
    ∃ hero source issuedIdentifier,
      GridCollectionViewCell.didSelectItemAt s.items row = some hero ∧
      hero.imageURL urlOfString = some source ∧
      (s.cells cell).titleLabel = some hero.localizedName ∧
      lastIssued s.issued cell = some ⟨cell, issuedIdentifier, source⟩ ∧
      (((s.cells cell).imageView = ⟨none, some issuedIdentifier⟩ ∧
          ⟨cell, issuedIdentifier, source⟩ ∈ s.retrievals) ∨
        ∃ result, .retrieved issuedIdentifier result ∈ es ∧
          (s.cells cell).imageView = ⟨result.map fun data => ⟨source, data⟩, none⟩) := by
  have hsound : CellsSound urlOfString es s :=
    Runs.run_induct (I := fun past s => CellsSound urlOfString past s) cellsSound_initial
      (fun _ _ _ _ _ hstep h => cellsSound_step h hstep) es s hrun
  obtain ⟨hero, source, hhero, hsource, htitle, id, hlast, himage⟩ :=
    hsound.displays row cell hvisible
  exact ⟨hero, source, id, hhero, hsource, htitle, hlast, himage⟩

/-- The cell is set up for Bloodseeker while the image of Anti-Mage is retrieved, and shows the
    image of Bloodseeker when that retrieval fails. -/
theorem cells_show_items_antiMage :
    let es := [.items (some [antiMage, bloodseeker]), .cellForItemAt 0 7, .didEndDisplaying 0,
      .cellForItemAt 1 7, .retrieved 2 (some 6), .retrieved 1 none]
    ∃ s, Runs.run (ImageGrid.step some) {} es = some s ∧
      (s.cells 7).imageView.image.map RetrievedImage.data = some 6 ∧
      ∃ hero source issuedIdentifier,
        GridCollectionViewCell.didSelectItemAt s.items 1 = some hero ∧
        hero.imageURL some = some source ∧
        (s.cells 7).titleLabel = some hero.localizedName ∧
        lastIssued s.issued 7 = some ⟨7, issuedIdentifier, source⟩ ∧
        (((s.cells 7).imageView = ⟨none, some issuedIdentifier⟩ ∧
            ⟨7, issuedIdentifier, source⟩ ∈ s.retrievals) ∨
          ∃ result, .retrieved issuedIdentifier result ∈ es ∧
            (s.cells 7).imageView = ⟨result.map fun data => ⟨source, data⟩, none⟩) :=
  ⟨_, rfl, rfl, cells_show_items some rfl (List.mem_singleton_self _)⟩

end HeroQ
