import Mathlib.Data.List.Perm.Basic

/-!
Operators that are pulled.

An operator is a state and a function that produces the next batch or reports that it is exhausted.
`drain` pulls until then. The rule at the end settles a whole run from one pull: what the operator
still owes shrinks by what it hands out.
-/

namespace KernelLake.Library.Pulling

variable {σ β ρ ε : Type}

/-- The batches an operator hands out until it is exhausted; nothing when a pull fails or the fuel
does not suffice. -/
def drain (next : σ → Except ε (Option β × σ)) : Nat → σ → Option (List β)
  | 0, _ => none
  | fuel + 1, state =>
    match next state with
    | .error _ => none
    | .ok (none, _) => some []
    | .ok (some batch, state) => (drain next fuel state).map (batch :: ·)

/-- The batches an operator hands out, one pull after the other, until it is exhausted. -/
inductive Delivers (next : σ → Except ε (Option β × σ)) : σ → List β → Prop
  | done {state after : σ} (exhausted : next state = .ok (none, after)) : Delivers next state []
  | more {state after : σ} {batch : β} {batches : List β} (pulled : next state = .ok (some batch, after))
      (rest : Delivers next after batches) : Delivers next state (batch :: batches)

section Delivers

variable {next : σ → Except ε (Option β × σ)} {state after : σ} {batch : β} {batches : List β}

theorem delivers_of_exhausted (exhausted : next state = .ok (none, after)) :
    Delivers next state batches ↔ batches = [] := by
  refine ⟨fun delivers => ?_, fun none => none ▸ .done exhausted⟩
  cases delivers with
  | done => rfl
  | more pulled => cases exhausted.symm.trans pulled

theorem delivers_of_pulled (pulled : next state = .ok (some batch, after)) :
    Delivers next state batches ↔ ∃ rest, batches = batch :: rest ∧ Delivers next after rest := by
  refine ⟨fun delivers => ?_, fun ⟨rest, same, delivers⟩ => same ▸ .more pulled delivers⟩
  cases delivers with
  | done exhausted => cases exhausted.symm.trans pulled
  | more other rest =>
    obtain ⟨same, sameState⟩ := Prod.mk.inj (Except.ok.inj (pulled.symm.trans other))
    obtain rfl := Option.some.inj same
    exact ⟨_, rfl, sameState ▸ rest⟩

theorem delivers_of_failed {failure : ε} (failed : next state = .error failure) : ¬ Delivers next state batches := by
  intro delivers
  cases delivers with
  | done exhausted => cases failed.symm.trans exhausted
  | more pulled => cases failed.symm.trans pulled

theorem Delivers.unique {other : List β} (delivers : Delivers next state batches)
    (deliversOther : Delivers next state other) : other = batches := by
  induction delivers generalizing other with
  | done exhausted => exact (delivers_of_exhausted exhausted).mp deliversOther
  | more pulled _ hypothesis =>
    obtain ⟨rest, same, deliversRest⟩ := (delivers_of_pulled pulled).mp deliversOther
    rw [same, hypothesis deliversRest]

/-- What an operator hands out depends on its next pull only. -/
theorem Delivers.congr {other : σ} (delivers : Delivers next state batches) (same : next other = next state) :
    Delivers next other batches := by
  cases delivers with
  | done exhausted => exact .done (same.trans exhausted)
  | more pulled rest => exact .more (same.trans pulled) rest

/-- Fuel for one pull more than there are batches drains an operator. -/
theorem Delivers.drain_eq (delivers : Delivers next state batches) {fuel : Nat} (enough : batches.length < fuel) :
    drain next fuel state = some batches := by
  induction delivers generalizing fuel with
  | done exhausted =>
    obtain ⟨fuel, rfl⟩ := Nat.exists_eq_succ_of_ne_zero (Nat.ne_of_gt enough)
    rw [drain, exhausted]
  | more pulled _ hypothesis =>
    obtain ⟨fuel, rfl⟩ := Nat.exists_eq_succ_of_ne_zero (Nat.ne_of_gt (Nat.zero_lt_of_lt enough))
    rw [drain, pulled]
    simp only [hypothesis (Nat.lt_of_succ_lt_succ enough), Option.map_some]

end Delivers

/-- What one pull does to the rows an operator owes: it hands out some of them and makes progress,
or it is exhausted and owes none. -/
def Pulls (next : σ → Except ε (Option β × σ)) (rows : β → List ρ) (ready : σ → Prop)
    (owed : σ → List ρ) (work : σ → Nat) (state : σ) : Prop :=
  (∃ after, next state = .ok (none, after) ∧ owed state = []) ∨
    ∃ batch after, next state = .ok (some batch, after) ∧ ready after ∧ work after < work state ∧
      (owed state).Perm (rows batch ++ owed after)

/-- An operator whose every pull hands out part of what it owes hands out all of it. -/
theorem drain_perm {next : σ → Except ε (Option β × σ)} {rows : β → List ρ} {ready : σ → Prop}
    {owed : σ → List ρ} {work : σ → Nat}
    (pulls : ∀ state, ready state → Pulls next rows ready owed work state)
    (fuel : Nat) (state : σ) (start : ready state) (enough : work state < fuel) :
    ∃ batches, drain next fuel state = some batches ∧ (batches.flatMap rows).Perm (owed state) := by
  induction fuel generalizing state with
  | zero => exact absurd enough (Nat.not_lt_zero _)
  | succ fuel hypothesis =>
    rcases pulls state start with ⟨after, pulled, nothing⟩ | ⟨batch, after, pulled, ready, less, same⟩
    · refine ⟨[], by simp [drain, pulled], ?_⟩
      rw [nothing]
      exact .refl _
    · obtain ⟨batches, drained, rest⟩ := hypothesis after ready (by omega)
      refine ⟨batch :: batches, by simp [drain, pulled, drained], ?_⟩
      rw [List.flatMap_cons]
      exact (rest.append_left _).trans same.symm

end KernelLake.Library.Pulling
