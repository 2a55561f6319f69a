import Mathlib.Data.List.Forall2

/-!
# Lib.Checked

Code that throws, as `Except`. A guard `if (bad) throw e` is `throwIf bad e`, a lookup that
throws when it finds nothing is `orThrow`. The lemmas read a successful computation backwards:
`bind_eq_ok` peels one step off, the others say what each kind of step returns.
-/

namespace Checked

variable {ε α β : Type}

/-- `if (bad) throw e` -/
def throwIf (bad : Prop) [Decidable bad] (e : ε) : Except ε Unit :=
  if bad then .error e else .ok ()

/-- The value of `o`, or the exception `e`. -/
def orThrow (o : Option α) (e : ε) : Except ε α :=
  match o with
  | some a => .ok a
  | none => .error e

@[simp] theorem throwIf_eq_ok {bad : Prop} [Decidable bad] {e : ε} {u : Unit} :
    throwIf bad e = .ok u ↔ ¬ bad := by
  unfold throwIf
  by_cases h : bad <;> simp [h]

@[simp] theorem throwIf_eq_error {bad : Prop} [Decidable bad] {e e' : ε} :
    throwIf bad e = .error e' ↔ bad ∧ e = e' := by
  unfold throwIf
  by_cases h : bad <;> simp [h]

@[simp] theorem orThrow_eq_ok {o : Option α} {e : ε} {a : α} :
    orThrow o e = .ok a ↔ o = some a := by
  cases o <;> simp [orThrow]

@[simp] theorem orThrow_eq_error {o : Option α} {e e' : ε} :
    orThrow o e = .error e' ↔ o = none ∧ e = e' := by
  cases o <;> simp [orThrow]

@[simp] theorem bind_eq_ok {x : Except ε α} {f : α → Except ε β} {b : β} :
    (x >>= f) = .ok b ↔ ∃ a, x = .ok a ∧ f a = .ok b := by
  cases x <;> simp [bind, Except.bind]

/-- A computation throws when a step of it does. -/
theorem bind_eq_error {x : Except ε α} {f : α → Except ε β} {e : ε} :
    (x >>= f) = .error e ↔ x = .error e ∨ ∃ a, x = .ok a ∧ f a = .error e := by
  cases x <;> simp [bind, Except.bind]

@[simp] theorem pure_eq_ok {a b : α} : (pure a : Except ε α) = .ok b ↔ a = b := by
  simp [pure, Except.pure]

@[simp] theorem throw_eq_ok {e : ε} {b : α} : (throw e : Except ε α) = .ok b ↔ False := by
  simp [throw, throwThe, MonadExceptOf.throw]

@[simp] theorem ok_bind {a : α} {f : α → Except ε β} : ((.ok a : Except ε α) >>= f) = f a := rfl

@[simp] theorem throwIf_bind_of_not {bad : Prop} [Decidable bad] (h : ¬ bad) {e : ε}
    {f : Unit → Except ε β} : (throwIf bad e >>= f) = f () := by
  rw [throwIf, if_neg h]; rfl

theorem throwIf_of_not {bad : Prop} [Decidable bad] (h : ¬ bad) {e : ε} :
    throwIf bad e = .ok () := if_neg h

/-! ## Computations that do not throw -/

/-- The computation returns. -/
def Succeeds (x : Except ε α) : Prop := ∃ a, x = .ok a

theorem succeeds_ok (a : α) : Succeeds (.ok a : Except ε α) := ⟨a, rfl⟩

theorem succeeds_pure (a : α) : Succeeds (pure a : Except ε α) := ⟨a, rfl⟩

theorem succeeds_bind {x : Except ε α} {f : α → Except ε β} {a : α} (hx : x = .ok a)
    (hf : Succeeds (f a)) : Succeeds (x >>= f) := by
  rw [hx]
  exact hf

theorem Succeeds.then {x : Except ε α} {f : α → Except ε β} (hx : Succeeds x)
    (hf : ∀ a, x = .ok a → Succeeds (f a)) : Succeeds (x >>= f) := by
  obtain ⟨a, ha⟩ := hx
  exact succeeds_bind ha (hf a ha)

/-- A loop whose every round returns in states that meet `I`, and keeps `I`. -/
theorem succeeds_foldlM {f : β → α → Except ε β} {l : List α} (I : β → Prop)
    (hstep : ∀ b, I b → ∀ a ∈ l, ∃ b', f b a = .ok b' ∧ I b') {b : β} (hb : I b) :
    ∃ b', l.foldlM f b = .ok b' ∧ I b' := by
  induction l generalizing b with
  | nil => exact ⟨b, rfl, hb⟩
  | cons a l ih =>
    obtain ⟨b', hfirst, hb'⟩ := hstep b hb a (List.mem_cons_self ..)
    obtain ⟨last, hrest, hlast⟩ :=
      ih (fun b hb a ha => hstep b hb a (List.mem_cons_of_mem _ ha)) hb'
    refine ⟨last, ?_, hlast⟩
    rw [List.foldlM_cons, hfirst]
    exact hrest

theorem succeeds_mapM {f : α → Except ε β} {l : List α} (h : ∀ a ∈ l, Succeeds (f a)) :
    Succeeds (l.mapM f) := by
  induction l with
  | nil => exact succeeds_pure []
  | cons a l ih =>
    rw [List.mapM_cons]
    refine (h a (List.mem_cons_self ..)).then fun b _ => ?_
    refine (ih fun a' ha' => h a' (List.mem_cons_of_mem _ ha')).then fun bs _ => ?_
    exact succeeds_pure _

theorem succeeds_findM {f : α → Except ε Bool} {l : List α} (h : ∀ a ∈ l, Succeeds (f a)) :
    Succeeds (l.findM? f) := by
  induction l with
  | nil => exact succeeds_pure none
  | cons a l ih =>
    obtain ⟨found, hfound⟩ := h a List.mem_cons_self
    rw [List.findM?, hfound]
    cases found with
    | true => exact succeeds_pure (some a)
    | false => exact ih fun a' ha' => h a' (List.mem_cons_of_mem _ ha')

theorem findM_eq_some {f : α → Except ε Bool} {l : List α} {a : α}
    (h : l.findM? f = .ok (some a)) : a ∈ l ∧ f a = .ok true := by
  induction l with
  | nil => cases h
  | cons b l ih =>
    rw [List.findM?] at h
    obtain ⟨found, hfound, h⟩ := bind_eq_ok.mp h
    cases found with
    | true =>
      cases h
      exact ⟨List.mem_cons_self, hfound⟩
    | false =>
      obtain ⟨hmem, ha⟩ := ih h
      exact ⟨List.mem_cons_of_mem _ hmem, ha⟩

theorem succeeds_allM {f : α → Except ε Bool} {l : List α} (h : ∀ a ∈ l, Succeeds (f a)) :
    Succeeds (l.allM f) := by
  induction l with
  | nil => exact succeeds_pure true
  | cons a l ih =>
    obtain ⟨found, hfound⟩ := h a List.mem_cons_self
    rw [List.allM, hfound]
    cases found with
    | true => exact ih fun a' ha' => h a' (List.mem_cons_of_mem _ ha')
    | false => exact succeeds_pure false

theorem succeeds_filterM {f : α → Except ε Bool} {l : List α} (h : ∀ a ∈ l, Succeeds (f a)) :
    Succeeds (l.filterM f) := by
  have haux : ∀ kept, Succeeds (l.filterAuxM f kept) := by
    induction l with
    | nil => exact fun kept => succeeds_pure kept
    | cons a l ih =>
      intro kept
      rw [List.filterAuxM]
      refine (h a List.mem_cons_self).then fun found _ => ?_
      exact ih (fun a' ha' => h a' (List.mem_cons_of_mem _ ha')) _
  exact (haux []).then fun kept _ => succeeds_pure kept.reverse

theorem exists_ok_of_any {x : Except ε α} {P : α → Bool} (h : x.toOption.any P = true) :
    ∃ a, x = .ok a ∧ P a = true := by
  cases x with
  | error e => cases h
  | ok a => exact ⟨a, rfl, h⟩

/-! ## Lists -/

/-- A list of results holds the result of every entry, in order. -/
theorem mapM_eq_ok {f : α → Except ε β} {l : List α} {l' : List β} :
    l.mapM f = .ok l' ↔ List.Forall₂ (fun a b => f a = .ok b) l l' := by
  induction l generalizing l' with
  | nil => cases l' <;> simp [List.mapM_nil, pure, Except.pure]
  | cons a l ih =>
    rw [List.mapM_cons]
    simp only [bind_eq_ok, pure_eq_ok, ih]
    constructor
    · rintro ⟨b, hb, bs, hbs, rfl⟩
      exact .cons hb hbs
    · intro h
      cases h with
      | cons hb hbs => exact ⟨_, hb, _, hbs, rfl⟩

theorem mapM_mem_left {f : α → Except ε β} {l : List α} {l' : List β} (h : l.mapM f = .ok l')
    {a : α} (ha : a ∈ l) : ∃ b ∈ l', f a = .ok b := by
  have hall := mapM_eq_ok.mp h
  clear h
  induction hall with
  | nil => cases ha
  | cons hab _ ih =>
    rcases List.mem_cons.mp ha with rfl | ha
    · exact ⟨_, List.mem_cons_self, hab⟩
    · obtain ⟨b, hb, hfb⟩ := ih ha
      exact ⟨b, List.mem_cons_of_mem _ hb, hfb⟩

theorem mapM_mem_right {f : α → Except ε β} {l : List α} {l' : List β} (h : l.mapM f = .ok l')
    {b : β} (hb : b ∈ l') : ∃ a ∈ l, f a = .ok b := by
  have hall := mapM_eq_ok.mp h
  clear h
  induction hall with
  | nil => cases hb
  | cons hab _ ih =>
    rcases List.mem_cons.mp hb with rfl | hb
    · exact ⟨_, List.mem_cons_self, hab⟩
    · obtain ⟨a, ha, hfa⟩ := ih hb
      exact ⟨a, List.mem_cons_of_mem _ ha, hfa⟩

theorem anyM_eq_ok_false {f : α → Except ε Bool} {l : List α} :
    l.anyM f = .ok false ↔ ∀ a ∈ l, f a = .ok false := by
  induction l with
  | nil => simp [List.anyM, pure, Except.pure]
  | cons a l ih =>
    simp only [List.anyM, bind_eq_ok, List.forall_mem_cons]
    constructor
    · rintro ⟨b, hb, h⟩
      cases b with
      | true => simp at h
      | false => exact ⟨hb, ih.mp h⟩
    · rintro ⟨hb, h⟩
      exact ⟨false, hb, ih.mpr h⟩

theorem forM_eq_ok {f : α → Except ε Unit} {l : List α} {u : Unit} :
    l.forM f = .ok u ↔ ∀ a ∈ l, f a = .ok u := by
  cases u
  induction l with
  | nil => simp [pure, Except.pure]
  | cons a l ih =>
    simp only [List.forM_eq_forM, List.forM_cons, bind_eq_ok, List.forall_mem_cons] at ih ⊢
    constructor
    · rintro ⟨_, ha, h⟩
      exact ⟨ha, ih.mp h⟩
    · rintro ⟨ha, h⟩
      exact ⟨_, ha, ih.mpr h⟩

end Checked
