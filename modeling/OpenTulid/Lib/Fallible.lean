/-
Computations that give a value or fail: what it means that a sequence of
them gives a value.
-/
import Mathlib.Data.List.Forall2

namespace Fallible

variable {ε α β : Type}

theorem ok_bind (a : α) (f : α → Except ε β) : (Except.ok a >>= f) = f a := rfl

/-- Two computations in a row give what the second gives on what the first
gave. -/
theorem bind_eq_ok {x : Except ε α} {f : α → Except ε β} {b : β} :
    (x >>= f) = .ok b ↔ ∃ a, x = .ok a ∧ f a = .ok b := by
  cases x with
  | error e => exact ⟨nofun, nofun⟩
  | ok a =>
      constructor
      · exact fun h => ⟨a, rfl, h⟩
      · rintro ⟨_, ⟨⟩, h⟩
        exact h

/-- Two computations in a row fail as the first does, or as the second does
on what the first gave. -/
theorem bind_eq_error {x : Except ε α} {f : α → Except ε β} {e : ε} :
    (x >>= f) = .error e ↔ x = .error e ∨ ∃ a, x = .ok a ∧ f a = .error e := by
  cases x with
  | error d =>
      constructor
      · rintro ⟨⟩
        exact .inl rfl
      · rintro (⟨⟨⟩⟩ | ⟨_, ⟨⟩, _⟩)
        rfl
  | ok a =>
      constructor
      · exact fun h => .inr ⟨a, rfl, h⟩
      · rintro (⟨⟨⟩⟩ | ⟨_, ⟨⟩, h⟩)
        exact h

theorem pure_eq_ok {a b : α} : (pure a : Except ε α) = .ok b ↔ a = b := by
  show Except.ok a = .ok b ↔ a = b
  rw [Except.ok.injEq]

theorem mapError_eq_ok {ε' : Type} {x : Except ε α} {f : ε → ε'} {a : α} :
    x.mapError f = .ok a ↔ x = .ok a := by
  cases x <;> simp [Except.mapError]

/-- The computation gives a value. -/
def Gives (x : Except ε α) : Prop := ∃ a, x = .ok a

@[simp] theorem gives_ok (a : α) : Gives (.ok a : Except ε α) := ⟨a, rfl⟩

@[simp] theorem gives_pure (a : α) : Gives (pure a : Except ε α) := ⟨a, rfl⟩

@[simp] theorem not_gives_error (e : ε) : ¬ Gives (.error e : Except ε α) := by
  rintro ⟨_, ⟨⟩⟩

/-- Two computations that give a value whatever comes before. -/
theorem Gives.bind {x : Except ε α} {f : α → Except ε β} (hx : Gives x)
    (hf : ∀ a, Gives (f a)) : Gives (x >>= f) := by
  obtain ⟨a, rfl⟩ := hx
  exact hf a

/-- Where the second computation cannot fail for a reason of its own, the
two give a value if and only if both do. -/
theorem gives_bind {x : Except ε α} {f : α → Except ε β} {p : Prop}
    (h : ∀ a, Gives (f a) ↔ p) : Gives (x >>= f) ↔ Gives x ∧ p := by
  constructor
  · rintro ⟨b, hb⟩
    obtain ⟨a, ha, hfa⟩ := bind_eq_ok.mp hb
    exact ⟨⟨a, ha⟩, (h a).mp ⟨b, hfa⟩⟩
  · rintro ⟨⟨a, rfl⟩, hp⟩
    exact (h a).mpr hp

/-- A computation for each item gives what the computations give. -/
theorem mapM_eq_ok {f : α → Except ε β} {as : List α} {bs : List β} :
    as.mapM f = .ok bs ↔ List.Forall₂ (fun a b => f a = .ok b) as bs := by
  induction as generalizing bs with
  | nil =>
      rw [List.mapM_nil, pure_eq_ok, List.forall₂_nil_left_iff]
      exact eq_comm
  | cons a as ih =>
      simp only [List.mapM_cons, bind_eq_ok, pure_eq_ok, ih]
      constructor
      · rintro ⟨b, hb, bs, hbs, rfl⟩
        exact .cons hb hbs
      · intro h
        cases h with
        | cons hb hbs => exact ⟨_, hb, _, hbs, rfl⟩

/-- What was computed for an item of a list is among the results. -/
theorem exists_of_mapM {f : α → Except ε β} {as : List α} {bs : List β} (h : as.mapM f = .ok bs)
    {a : α} (ha : a ∈ as) : ∃ b ∈ bs, f a = .ok b := by
  induction mapM_eq_ok.mp h with
  | nil => cases ha
  | cons hb _ ih =>
      rcases List.mem_cons.mp ha with rfl | ha
      · exact ⟨_, List.mem_cons_self, hb⟩
      · obtain ⟨b, hmem, hb⟩ := ih (mapM_eq_ok.mpr ‹_›) ha
        exact ⟨b, List.mem_cons_of_mem _ hmem, hb⟩

theorem gives_mapM {f : α → Except ε β} {as : List α} :
    Gives (as.mapM f) ↔ ∀ a ∈ as, Gives (f a) := by
  induction as with
  | nil => simp
  | cons a as ih =>
      rw [List.mapM_cons, List.forall_mem_cons, ← ih]
      exact gives_bind fun _ => by
        rw [gives_bind (p := True) fun _ => by simp, and_true]

/-- Two runs over lists give the same up to `g` if and only if the items are
related pairwise, when that is so for each pair of items. -/
theorem map_eq_iff_forall₂ {γ : Type} {f : α → Except ε β} {g : β → γ} {rel : α → α → Prop}
    (hitem : ∀ a a' b b', f a = .ok b → f a' = .ok b' → (g b = g b' ↔ rel a a'))
    {as as' : List α} {bs bs' : List β} (h : List.Forall₂ (fun a b => f a = .ok b) as bs)
    (h' : List.Forall₂ (fun a b => f a = .ok b) as' bs') :
    bs.map g = bs'.map g ↔ List.Forall₂ rel as as' := by
  induction h generalizing as' bs' with
  | nil => cases h' <;> simp
  | cons hb _ ih =>
      cases h' with
      | nil => simp
      | cons hb' hbs' =>
          rw [List.map_cons, List.map_cons, List.cons.injEq, List.forall₂_cons, ih hbs',
            hitem _ _ _ _ hb hb']

/-- An optional value for each item. -/
theorem mapM_cons_eq_some {f : α → Option β} {a : α} {as : List α} {bs : List β} :
    (a :: as).mapM f = some bs ↔ ∃ b rest, f a = some b ∧ as.mapM f = some rest ∧ bs = b :: rest := by
  rw [List.mapM_cons]
  cases f a with
  | none => simp
  | some b =>
      cases as.mapM f with
      | none => simp
      | some rest => simp [eq_comm]

/-- Optional values for all items are one for each. -/
theorem mapM_eq_some {f : α → Option β} {as : List α} {bs : List β} :
    as.mapM f = some bs ↔ List.Forall₂ (fun a b => f a = some b) as bs := by
  induction as generalizing bs with
  | nil =>
      constructor
      · intro h
        cases h
        exact .nil
      · intro h
        cases h
        rfl
  | cons a as ih =>
      rw [mapM_cons_eq_some]
      constructor
      · rintro ⟨b, rest, hb, hrest, rfl⟩
        exact .cons hb (ih.mp hrest)
      · intro h
        cases h with
        | cons hb hrest => exact ⟨_, _, hb, ih.mpr hrest, rfl⟩

end Fallible
