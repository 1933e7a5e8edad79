/-
  `HeroService`: the request for the heroes and what it ends in.

  The data task and the JSON decoder are Foundation's; a response body is what the decoder makes of
  it.  `URL(string:)` accepts the constant endpoint, so `invalidEndpoint` never arises.
-/
import HeroQ.Entities

namespace HeroQ

/-- `HeroServiceProtocol.swift` -/
inductive HeroError where
  | apiError
  | invalidEndpoint
  | invalidResponse
  | noData
  | serializationError
  deriving DecidableEq, Repr

/-- A response body: one that decodes as `[Hero]`, or one on which the decoder throws. -/
inductive Body where
  | heroes (heroes : List Hero)
  | malformed
  deriving DecidableEq, Repr

/-- What the data task hands to its completion handler: whether `error` is set, the status code if
    `response` is an `HTTPURLResponse`, and the body if there is one. -/
structure TaskResult where
  error : Bool
  statusCode : Option Int
  data : Option Body
  deriving DecidableEq, Repr

namespace HeroService

/-- `baseAPIURL` -/
def baseAPIURL : String := "https://api.opendota.com"

/-- The completion handler of `fetchHeroes`: the heroes handed to `successHandler`, or the error
    handed to `errorHandler`, on the main queue. -/
def completion (result : TaskResult) : Except HeroError (List Hero) :=
  if result.error then .error .apiError
  else match result.statusCode with
    | some code =>
      if 200 ≤ code ∧ code < 300 then
        match result.data with
        | none => .error .noData
        | some (.heroes heroes) => .ok heroes
        | some .malformed => .error .serializationError
      else .error .invalidResponse
    | none => .error .invalidResponse

/-- A request answered with `heroes`. -/
def answer (heroes : List Hero) : TaskResult := ⟨false, some 200, some (.heroes heroes)⟩

@[simp] theorem completion_answer (heroes : List Hero) : completion (answer heroes) = .ok heroes :=
  rfl

/-- A request succeeds iff it is answered, with a status in the 200s and a body that decodes. -/
theorem completion_eq_ok_iff {result : TaskResult} {heroes : List Hero} :
    completion result = .ok heroes ↔ result.error = false ∧
      (∃ code, result.statusCode = some code ∧ 200 ≤ code ∧ code < 300) ∧
      result.data = some (.heroes heroes) := by
  obtain ⟨error, statusCode, data⟩ := result
  cases error with
  | true => simp [completion]
  | false =>
    cases statusCode with
    | none => simp [completion]
    | some code =>
      by_cases hcode : 200 ≤ code ∧ code < 300
      · rcases data with _ | ⟨hs⟩ | _ <;> simp [completion, hcode]
      · simp [completion, hcode]

end HeroService

/-- `imageURL` of `Hero.swift`, with Foundation's `URL(string:)`; unwrapping a nil traps. -/
def Hero.imageURL {URL : Type} (urlOfString : String → Option URL) (hero : Hero) : Option URL :=
  urlOfString (HeroService.baseAPIURL ++ hero.img)

end HeroQ
