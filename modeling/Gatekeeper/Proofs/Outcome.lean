import Mathlib.Data.List.Forall2

/-!
# Outcomes

How operations that may fail are taken apart: one after another ends with a result just if both do, and
fails with the first error, and a list is read just if each of its members is.
-/
namespace Gatekeeper

theorem mapError_eq_ok_iff {α ε ε' : Type} (f : ε → ε') (r : Except ε α) (a : α) :
    r.mapError f = .ok a ↔ r = .ok a := by
  cases r <;> simp [Except.mapError]

theorem mapError_eq_error_iff {α ε ε' : Type} (f : ε → ε') (r : Except ε α) (e : ε') :
    r.mapError f = .error e ↔ ∃ e', r = .error e' ∧ f e' = e := by
  cases r <;> simp [Except.mapError]

theorem bind_eq_ok_iff {α β ε : Type} (x : Except ε α) (f : α → Except ε β) (b : β) :
    x >>= f = .ok b ↔ ∃ a, x = .ok a ∧ f a = .ok b := by
  cases x with
  | error e => simp [bind, Except.bind]
  | ok a => simp [bind, Except.bind]

theorem map_eq_ok_iff {α β ε : Type} (f : α → β) (x : Except ε α) (b : β) :
    f <$> x = .ok b ↔ ∃ a, x = .ok a ∧ b = f a := by
  cases x with
  | error e => simp [Functor.map, Except.map]
  | ok a => simp [Functor.map, Except.map, eq_comm]

theorem bind_eq_error_iff {α β ε : Type} (x : Except ε α) (f : α → Except ε β) (e : ε) :
    x >>= f = .error e ↔ x = .error e ∨ ∃ a, x = .ok a ∧ f a = .error e := by
  cases x <;> simp [Bind.bind, Except.bind]

theorem map_eq_error_iff {α β ε : Type} (f : α → β) (x : Except ε α) (e : ε) :
    f <$> x = .error e ↔ x = .error e := by
  cases x <;> simp [Functor.map, Except.map]

theorem mapM_eq_ok_iff {α β ε : Type} (f : α → Except ε β) (xs : List α) (ys : List β) :
    xs.mapM f = .ok ys ↔ List.Forall₂ (fun x y => f x = .ok y) xs ys := by
  induction xs generalizing ys with
  | nil =>
    rw [List.mapM_nil, List.forall₂_nil_left_iff]
    simp [pure, Except.pure, eq_comm]
  | cons x xs ih =>
    rw [List.mapM_cons, List.forall₂_cons_left_iff]
    simp [bind_eq_ok_iff, map_eq_ok_iff, ih]

/-- A list is not read for its first member that is not. -/
theorem mapM_eq_error_iff {α β ε : Type} (f : α → Except ε β) (xs : List α) (e : ε) :
    xs.mapM f = .error e ↔ ∃ before x after, xs = before ++ x :: after ∧
      (∀ x' ∈ before, ∃ y, f x' = .ok y) ∧ f x = .error e := by
  induction xs with
  | nil => simp [pure, Except.pure]
  | cons x xs ih =>
    rw [List.mapM_cons]
    simp only [bind_pure_comp, bind_eq_error_iff, map_eq_error_iff, ih]
    constructor
    · rintro (hx | ⟨y, hx, before, x', after, rfl, hb, hf⟩)
      · exact ⟨[], x, xs, rfl, by simp, hx⟩
      · exact ⟨x :: before, x', after, rfl, List.forall_mem_cons.2 ⟨⟨y, hx⟩, hb⟩, hf⟩
    · rintro ⟨before, x', after, he, hb, hf⟩
      cases before with
      | nil =>
        obtain ⟨rfl, rfl⟩ := List.cons.inj he
        exact .inl hf
      | cons first before =>
        obtain ⟨rfl, rfl⟩ := List.cons.inj he
        obtain ⟨⟨y, hx⟩, hb⟩ := List.forall_mem_cons.1 hb
        exact .inr ⟨y, hx, before, x', after, rfl, hb, hf⟩

/-- A list is read as a whole, or one of its members is not read. -/
theorem mapM_cases {α β ε : Type} (f : α → Except ε β) (xs : List α) :
    (∃ ys, xs.mapM f = .ok ys) ∨ ∃ e, xs.mapM f = .error e ∧ ∃ x ∈ xs, f x = .error e := by
  induction xs with
  | nil => exact .inl ⟨[], rfl⟩
  | cons x xs ih =>
    rw [List.mapM_cons]
    cases hx : f x with
    | error e => exact .inr ⟨e, rfl, x, List.mem_cons_self .., hx⟩
    | ok y =>
      rcases ih with ⟨ys, hys⟩ | ⟨e, he, x', hm, hx'⟩
      · rw [hys]
        exact .inl ⟨y :: ys, rfl⟩
      · rw [he]
        exact .inr ⟨e, rfl, x', List.mem_cons_of_mem x hm, hx'⟩

end Gatekeeper
