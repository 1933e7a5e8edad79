/-
  The images of the heroes.

  The cells of the grid, of the detail and of the similar heroes unwrap `imageURL` of a hero of the
  list, and a nil ends the app.  Nothing checks `img` on its way from the server: a hero is shown
  with its image iff `URL(string:)` accepts the address (`images_shown_iff`), and one that it
  rejects is stored, too, and comes back at later launches (`image_traps_at_launch`).
-/
import HeroQ.Provenance

namespace HeroQ

variable {URL : Type} (urlOfString : String → Option URL)

/-- Every hero on the list has its image. -/
def ShowsImages (i : HeroListInteractor) : Prop :=
  ∀ hero ∈ i.obsHeroes, (hero.imageURL urlOfString).isSome = true

/-- `URL(string:)` accepts the address of the image. -/
def ValidImage (img : String) : Prop :=
  (urlOfString (HeroService.baseAPIURL ++ img)).isSome = true

/-- **Every hero ever on the list has its image** iff `URL(string:)` accepts the image address of
    every hero delivered since the installation. -/
theorem images_shown_iff (P : Platform) {es : List Event} {s : App}
    (hrun : Runs.run (App.step P) .installed es = some s) :
    Runs.Throughout (App.step P) .installed es
        (fun _ s => ShowsImages urlOfString s.interactor) ↔
      ∀ response ∈ delivered es, ∀ hero ∈ response, ValidImage urlOfString hero.img := by
  constructor
  · intro h response hresponse hero hh
    obtain ⟨past, s', hpast, hs', hshown⟩ := delivered_shown hrun hresponse
    exact h past s' hpast hs' hero (hshown ▸ hh)
  · intro h past s' hpast hs' hero hh
    obtain ⟨response, hresponse, hh⟩ := (fromResponses hs').obsHeroes hero hh
    exact h response ((hpast.filterMap Event.response).subset hresponse) hero hh

/-- A `URL(string:)` that rejects the strings with a space. -/
def urlWithoutSpace (string : String) : Option String :=
  if string.toList.contains ' ' then none else some string

theorem images_shown_iff_antiMage :
    Runs.Throughout (App.step .insertion) .installed
      [.fetchHeroes .ok true, .complete 0 (HeroService.answer [antiMage]) .ok]
      (fun _ s => ShowsImages urlWithoutSpace s.interactor) :=
  (images_shown_iff urlWithoutSpace .insertion rfl).2 (by unfold ValidImage; decide)

/-- One response with a space in an image address: the app traps when it arrives, and at the next
    launch when the hero comes back from the cache. -/
theorem image_traps_at_launch :
    ∃ es s, Runs.run (App.step .insertion) .installed es = some s ∧
      es = [.fetchHeroes .ok true,
        .complete 0 (HeroService.answer [{ antiMage with img := "/anti mage.png" }]) .ok,
        .launch, .fetchHeroes .ok false] ∧
      (s.interactor.obsHeroes.map fun hero => hero.imageURL urlWithoutSpace) = [none] ∧
      ¬ ShowsImages urlWithoutSpace s.interactor := by
  refine ⟨_, _, rfl, rfl, by decide, ?_⟩
  unfold ShowsImages
  decide

end HeroQ
