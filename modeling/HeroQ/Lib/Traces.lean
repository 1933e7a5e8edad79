/-
  Runs that stand for one another.

  * `run_flatMap`: if every step of one machine is matched by a run of another, then so is every
    run;
  * `run_filter`: if the events with `p` commute with the others, they may all come first.
-/
import HeroQ.Lib.Runs

namespace Runs

variable {σ τ ε δ : Type*} {step : σ → ε → Option σ} {step' : τ → δ → Option τ}

/-- **Simulation by runs.**  If every step between related states is matched by the run `f e` of
    the other machine, every run is matched by those runs one after another. -/
theorem run_flatMap (f : ε → List δ) (R : σ → τ → Prop)
    (hstep : ∀ s s' t e, R s t → step s e = some s' →
      ∃ t', run step' t (f e) = some t' ∧ R s' t') :
    ∀ es s s' t, R s t → run step s es = some s' →
      ∃ t', run step' t (es.flatMap f) = some t' ∧ R s' t' := by
  intro es
  induction es with
  | nil => rintro s s' t hR h; cases h; exact ⟨t, rfl, hR⟩
  | cons e es ih =>
    intro s s' t hR h
    obtain ⟨s₁, he, hes⟩ := Option.bind_eq_some_iff.1 h
    obtain ⟨t₁, ht₁, hR₁⟩ := hstep s s₁ t e hR he
    obtain ⟨t', ht', hR'⟩ := ih s₁ s' t₁ hR₁ hes
    refine ⟨t', ?_, hR'⟩
    rw [List.flatMap_cons, run_append, ht₁]
    exact ht'

/-- Two events commute: both orders lead to the same state, or neither is enabled. -/
def Commutes (step : σ → ε → Option σ) (e e' : ε) : Prop :=
  ∀ s, run step s [e, e'] = run step s [e', e]

theorem Commutes.symm {e e' : ε} (h : Commutes step e e') : Commutes step e' e :=
  fun s => (h s).symm

/-- An event that commutes with all events of a run may come before it. -/
theorem run_move {e : ε} {es : List ε} (h : ∀ e' ∈ es, Commutes step e e') (s : σ) :
    run step s (e :: es) = run step s (es ++ [e]) := by
  induction es generalizing s with
  | nil => rfl
  | cons e' es ih =>
    calc run step s (e :: e' :: es)
        = (run step s [e, e']).bind fun s' => run step s' es := run_append step [e, e'] es s
      _ = (run step s [e', e]).bind fun s' => run step s' es := by rw [h e' List.mem_cons_self s]
      _ = run step s (e' :: e :: es) := (run_append step [e', e] es s).symm
      _ = (step s e').bind fun s' => run step s' (e :: es) := rfl
      _ = (step s e').bind fun s' => run step s' (es ++ [e]) := by
        simp only [ih fun e'' he'' => h e'' (List.mem_cons_of_mem e' he'')]
      _ = run step s (e' :: es ++ [e]) := rfl

/-- **Commuting events may be sorted.**  If the events with `p` commute with the others, a run is
    the run of the former followed by that of the latter. -/
theorem run_filter (p : ε → Bool) {es : List ε}
    (h : ∀ e ∈ es, ∀ e' ∈ es, p e = true → p e' = false → Commutes step e e') (s : σ) :
    run step s es = run step s (es.filter p ++ es.filter fun e => !p e) := by
  induction es generalizing s with
  | nil => rfl
  | cons e es ih =>
    have hrest : ∀ s, run step s es = run step s (es.filter p ++ es.filter fun e => !p e) :=
      ih fun e₁ h₁ e₂ h₂ => h e₁ (List.mem_cons_of_mem e h₁) e₂ (List.mem_cons_of_mem e h₂)
    rw [run_cons]
    simp only [hrest]
    rw [← run_cons]
    cases hp : p e with
    | true => rw [List.filter_cons_of_pos hp, List.filter_cons_of_neg (by simp [hp])]; rfl
    | false =>
      -- the event moves past those with `p`
      have hmove : ∀ e' ∈ es.filter p, Commutes step e e' := fun e' he' =>
        (h e' (List.mem_cons_of_mem e (List.mem_filter.1 he').1) e List.mem_cons_self
          (List.mem_filter.1 he').2 hp).symm
      rw [List.filter_cons_of_neg (by simp [hp]), List.filter_cons_of_pos (by simp [hp]),
        ← List.cons_append, run_append, run_move hmove, ← run_append, List.append_assoc]
      rfl

end Runs
