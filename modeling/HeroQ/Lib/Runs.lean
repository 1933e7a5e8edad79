/-
  Runs of a guarded step function.

  `step s e` is `some s'` if the event `e` is enabled in the state `s` and leads to `s'`, and
  `none` otherwise.  A run is a list of events, each enabled when it occurs.  Properties of runs
  may speak of the events so far (`past`) as well as of the state reached.

  * `run_induct`: what every step preserves holds after every run (`run_induct_each`: of events that
    meet a condition; `run_induct_eachStep`: of steps that do);
  * `throughout_iff`: if each step from a state where `I` holds preserves `I` exactly when it meets
    `C`, then `I` holds throughout a run iff every step of the run meets `C`;
  * `run_countP_le`: events that use up a measure are at most as many as the measure at the start;
  * `run_simulates`: a forward simulation by a total function, which also rules out that the run
    gets stuck.
-/
import Mathlib.Data.List.Infix

namespace Runs

variable {σ ε : Type*} (step : σ → ε → Option σ)

/-- The state after the events `es`, if each of them is enabled when it occurs. -/
def run (s : σ) : List ε → Option σ
  | [] => some s
  | e :: es => (step s e).bind fun s' => run s' es

@[simp] theorem run_nil (s : σ) : run step s [] = some s := rfl

@[simp] theorem run_cons (s : σ) (e : ε) (es : List ε) :
    run step s (e :: es) = (step s e).bind fun s' => run step s' es := rfl

theorem run_singleton (s : σ) (e : ε) : run step s [e] = step s e := Option.bind_fun_some _

theorem run_append (es es' : List ε) :
    ∀ s, run step s (es ++ es') = (run step s es).bind fun s' => run step s' es' := by
  induction es with
  | nil => intro s; rfl
  | cons e es ih =>
    intro s
    simp only [List.cons_append, run_cons, ih, Option.bind_assoc]

theorem run_snoc {s s'' : σ} {es : List ε} {e : ε} :
    run step s (es ++ [e]) = some s'' ↔ ∃ s', run step s es = some s' ∧ step s' e = some s'' := by
  rw [run_append, Option.bind_eq_some_iff]
  simp

/-- A run is enabled up to each of its prefixes. -/
theorem run_prefix {s s' : σ} {past es : List ε} (h : run step s es = some s')
    (hp : past <+: es) : ∃ s₁, run step s past = some s₁ := by
  obtain ⟨rest, rfl⟩ := hp
  rw [run_append, Option.bind_eq_some_iff] at h
  exact ⟨_, h.choose_spec.1⟩

variable {step}

/-- **What every step preserves holds after every run.** -/
theorem run_induct {s₀ : σ} {I : List ε → σ → Prop} (h₀ : I [] s₀)
    (hstep : ∀ past e s s', run step s₀ past = some s → step s e = some s' → I past s →
      I (past ++ [e]) s') :
    ∀ es s, run step s₀ es = some s → I es s := by
  intro es
  induction es using List.reverseRecOn with
  | nil => intro s h; cases h; exact h₀
  | append_singleton past e ih =>
    intro s' h
    obtain ⟨s, hs, he⟩ := (run_snoc step).1 h
    exact hstep past e s s' hs he (ih s hs)

/-- What every step by an event with `H` preserves holds after every run of such events. -/
theorem run_induct_each {s₀ : σ} {H : ε → Prop} {I : List ε → σ → Prop} (h₀ : I [] s₀)
    (hstep : ∀ past e s s', step s e = some s' → H e → I past s → I (past ++ [e]) s')
    {es : List ε} {s : σ} (hes : ∀ e ∈ es, H e) (hrun : run step s₀ es = some s) : I es s := by
  refine run_induct (I := fun past s => (∀ e ∈ past, H e) → I past s) (fun _ => h₀) ?_ es s hrun hes
  intro past e s s' _ he hI hpast
  exact hstep past e s s' he (hpast e (by simp)) (hI fun e' he' => hpast e' (by simp [he']))

/-- **Events that use up a measure are bounded by it**, in runs of events with `H`, which do not
    increase it. -/
theorem run_countP_le {I : σ → Prop} {H : ε → Prop} (p : ε → Bool) (weight : σ → ℕ)
    (hstep : ∀ s s' e, I s → H e → step s e = some s' →
      I s' ∧ weight s' + (if p e then 1 else 0) ≤ weight s) :
    ∀ (es : List ε) (s s' : σ), I s → (∀ e ∈ es, H e) → run step s es = some s' →
      weight s' + es.countP p ≤ weight s := by
  intro es
  induction es with
  | nil => intro s s' _ _ h; cases h; simp
  | cons e es ih =>
    intro s s' hI hes h
    rw [run_cons, Option.bind_eq_some_iff] at h
    obtain ⟨s₁, he, hs'⟩ := h
    obtain ⟨hI₁, hle⟩ := hstep s s₁ e hI (hes e List.mem_cons_self) he
    have hrest := ih s₁ s' hI₁ (fun e' he' => hes e' (List.mem_cons_of_mem e he')) hs'
    rw [List.countP_cons]
    omega

/-- `I` holds in every state that the run `es` from `s₀` passes through. -/
def Throughout (step : σ → ε → Option σ) (s₀ : σ) (es : List ε) (I : List ε → σ → Prop) : Prop :=
  ∀ past s, past <+: es → run step s₀ past = some s → I past s

/-- Every step of the run `es` from `s₀` meets `C`. -/
def EachStep (step : σ → ε → Option σ) (s₀ : σ) (es : List ε) (C : List ε → σ → ε → Prop) : Prop :=
  ∀ past e s, past ++ [e] <+: es → run step s₀ past = some s → C past s e

theorem eachStep_cons {C : σ → ε → Prop} {s : σ} {e : ε} {es : List ε} :
    EachStep step s (e :: es) (fun _ => C) ↔
      C s e ∧ ∀ s' ∈ step s e, EachStep step s' es fun _ => C := by
  constructor
  · intro h
    refine ⟨h [] e s (by simp) rfl, fun s' hs' past e' s'' hp hrun => ?_⟩
    refine h (e :: past) e' s'' (List.cons_prefix_cons.2 ⟨rfl, hp⟩) ?_
    rw [run_cons, hs']
    exact hrun
  · rintro ⟨hfirst, hrest⟩ past e' s'' hp hrun
    cases past with
    | nil =>
      obtain ⟨rfl, -⟩ := List.cons_prefix_cons.1 hp
      cases hrun
      exact hfirst
    | cons e₁ past =>
      obtain ⟨rfl, hpast⟩ := List.cons_prefix_cons.1 hp
      obtain ⟨s', hs', hrun⟩ := Option.bind_eq_some_iff.1 hrun
      exact hrest s' hs' past e' s'' hpast hrun

/-- Whether each step of a run meets a condition can be decided. -/
instance decidableEachStep {C : σ → ε → Prop} [∀ s e, Decidable (C s e)] :
    ∀ (es : List ε) (s : σ), Decidable (EachStep step s es fun _ => C)
  | [], _ => isTrue fun _ _ _ hp => by simp at hp
  | e :: es, s =>
    have (s' : σ) : Decidable (EachStep step s' es fun _ => C) := decidableEachStep es s'
    decidable_of_iff (C s e ∧ ∀ s' ∈ step s e, EachStep step s' es fun _ => C) eachStep_cons.symm

/-- What every step that meets `C` preserves holds after every run of such steps. -/
theorem run_induct_eachStep {s₀ : σ} {I : List ε → σ → Prop} {C : List ε → σ → ε → Prop}
    (h₀ : I [] s₀)
    (hstep : ∀ past e s s', run step s₀ past = some s → step s e = some s' → C past s e →
      I past s → I (past ++ [e]) s')
    {es : List ε} {s : σ} (hes : EachStep step s₀ es C) (hrun : run step s₀ es = some s) :
    I es s := by
  refine run_induct (I := fun past s => past <+: es → I past s) (fun _ => h₀) ?_ es s hrun
    (List.prefix_refl es)
  intro past e s s' hs he hI hp
  exact hstep past e s s' hs he (hes past e s hp hs) (hI ((List.prefix_append past [e]).trans hp))

/-- **A property holds throughout a run iff every step of the run meets the condition** under
    which a step preserves the property. -/
theorem throughout_iff {s₀ : σ} {I : List ε → σ → Prop} {C : List ε → σ → ε → Prop} (h₀ : I [] s₀)
    (hstep : ∀ past e s s', run step s₀ past = some s → step s e = some s' → I past s →
      (I (past ++ [e]) s' ↔ C past s e))
    {es : List ε} {s : σ} (hrun : run step s₀ es = some s) :
    Throughout step s₀ es I ↔ EachStep step s₀ es C := by
  constructor
  · intro h past e s₁ hp hs₁
    obtain ⟨s₂, hs₂⟩ := run_prefix step hrun hp
    obtain ⟨s₁', hs₁', he⟩ := (run_snoc step).1 hs₂
    obtain rfl : s₁ = s₁' := Option.some.inj (hs₁.symm.trans hs₁')
    have hI : I past s₁ := h past s₁ ((List.prefix_append past [e]).trans hp) hs₁
    exact (hstep past e s₁ s₂ hs₁ he hI).1 (h _ s₂ hp hs₂)
  · intro h past
    induction past using List.reverseRecOn with
    | nil => intro s₁ _ hs₁; cases hs₁; exact h₀
    | append_singleton past e ih =>
      intro s₂ hp hs₂
      obtain ⟨s₁, hs₁, he⟩ := (run_snoc step).1 hs₂
      have hI : I past s₁ := ih s₁ ((List.prefix_append past [e]).trans hp) hs₁
      exact (hstep past e s₁ s₂ hs₁ he hI).2 (h past e s₁ hp hs₁)

/-- What the events of a run produce, after one more event. -/
theorem filterMap_snoc {α : Type*} (f : ε → Option α) (es : List ε) (e : ε) :
    (es ++ [e]).filterMap f = es.filterMap f ++ (f e).toList := by
  rw [List.filterMap_append]
  cases h : f e <;> simp [h]

/-- **Forward simulation.**  If every step is enabled in related states and its result is related
    to that of the abstract step, then every run is enabled and ends in related states. -/
theorem run_simulates {τ : Type*} (abs : τ → ε → τ) (R : σ → τ → Prop)
    (hstep : ∀ s t e, R s t → ∃ s', step s e = some s' ∧ R s' (abs t e)) :
    ∀ (es : List ε) (s : σ) (t : τ), R s t →
      ∃ s', run step s es = some s' ∧ R s' (es.foldl abs t) := by
  intro es
  induction es with
  | nil => intro s t h; exact ⟨s, rfl, h⟩
  | cons e es ih =>
    intro s t h
    obtain ⟨s₁, hs₁, hR⟩ := hstep s t e h
    obtain ⟨s', hs', hR'⟩ := ih s₁ _ hR
    exact ⟨s', by rw [run_cons, hs₁]; exact hs', hR'⟩

end Runs
