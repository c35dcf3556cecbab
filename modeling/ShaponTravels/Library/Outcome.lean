import Mathlib.Data.List.Forall2
import Mathlib.Data.List.ReduceOption
import Mathlib.Tactic.Common

/-!
# Outcome — straight-line fallible code

Fallible functions are `do` blocks in `Except ε`.  A guard is `ensure`, a lookup that must
succeed is `fetch`.  The lemmas here turn "this block returned `.ok`" into the conjunction of
what its steps returned, so a caller inverts a whole function with one `simp only`.
-/

namespace Library

variable {ε α β : Type}

/-- Continue when `c` holds, stop with `e` when it does not. -/
def ensure (c : Prop) [Decidable c] (e : ε) : Except ε Unit :=
  if c then .ok () else .error e

/-- Unwrap a lookup; a missing value is the error `e`. -/
def fetch (o : Option α) (e : ε) : Except ε α :=
  match o with
  | some a => .ok a
  | none => .error e

@[simp] theorem ensure_eq_ok {c : Prop} [Decidable c] {e : ε} {u : Unit} :
    ensure c e = .ok u ↔ c := by
  unfold ensure
  by_cases h : c
  · rw [if_pos h]; exact iff_of_true rfl h
  · rw [if_neg h]; exact iff_of_false (by simp) h

@[simp] theorem ensure_eq_error {c : Prop} [Decidable c] {e e' : ε} :
    ensure c e = .error e' ↔ ¬ c ∧ e = e' := by
  unfold ensure
  by_cases h : c
  · rw [if_pos h]; exact iff_of_false (by simp) (fun hn => hn.1 h)
  · rw [if_neg h, Except.error.injEq]; exact ⟨fun he => ⟨h, he⟩, fun he => he.2⟩

theorem ensure_of {c : Prop} [Decidable c] (h : c) (e : ε) : ensure c e = .ok () :=
  ensure_eq_ok.mpr h

@[simp] theorem fetch_eq_ok {o : Option α} {e : ε} {a : α} : fetch o e = .ok a ↔ o = some a := by
  cases o with
  | none => simp [fetch]
  | some b => simp [fetch]

@[simp] theorem fetch_eq_error {o : Option α} {e e' : ε} :
    fetch o e = .error e' ↔ o = none ∧ e = e' := by
  cases o with
  | none => simp [fetch]
  | some b => simp [fetch]

@[simp] theorem fetch_some (a : α) (e : ε) : fetch (some a) e = .ok a := rfl

theorem ok_bind (a : α) (f : α → Except ε β) : (Except.ok a >>= f) = f a := rfl

theorem bind_eq_ok {x : Except ε α} {f : α → Except ε β} {b : β} :
    x >>= f = .ok b ↔ ∃ a, x = .ok a ∧ f a = .ok b := by
  cases x with
  | error e => exact iff_of_false (by intro h; cases h) (by rintro ⟨a, ha, -⟩; cases ha)
  | ok a =>
    constructor
    · intro h; exact ⟨a, rfl, h⟩
    · rintro ⟨a', ha, h⟩; cases ha; exact h

theorem bind_eq_error {x : Except ε α} {f : α → Except ε β} {e : ε} :
    x >>= f = .error e ↔ x = .error e ∨ ∃ a, x = .ok a ∧ f a = .error e := by
  cases x with
  | error e' =>
    constructor
    · intro h; cases h; exact .inl rfl
    · rintro (h | ⟨a, ha, -⟩)
      · cases h; rfl
      · cases ha
  | ok a =>
    constructor
    · intro h; exact .inr ⟨a, rfl, h⟩
    · rintro (h | ⟨a', ha, h⟩)
      · cases h
      · cases ha; exact h

@[simp] theorem pure_eq_ok {a b : α} : (pure a : Except ε α) = .ok b ↔ a = b := by
  constructor
  · intro h; cases h; rfl
  · rintro rfl; rfl

@[simp] theorem pure_ne_error {a : α} {e : ε} : (pure a : Except ε α) ≠ .error e := by
  intro h; cases h

/-- A function of the result goes into the last step. -/
theorem map_bind {γ : Type} (x : Except ε α) (f : α → Except ε β) (g : β → γ) :
    (x >>= f).map g = x >>= fun a => (f a).map g := by
  cases x with
  | error e => rfl
  | ok a => rfl

theorem bind_map {γ : Type} (x : Except ε α) (g : α → β) (f : β → Except ε γ) :
    (x.map g >>= f) = x >>= fun a => f (g a) := by
  cases x with
  | error e => rfl
  | ok a => rfl

/-- Two computations go on alike where what goes on reads only what they agree on. -/
theorem bind_agree {γ : Type} {x x' : Except ε α} {k k' : α → Except ε β} {g : α → γ}
    (h : x.map g = x'.map g) (hk : ∀ a a', g a = g a' → k a = k' a') : (x >>= k) = x' >>= k' := by
  cases x with
  | error e =>
    cases x' with
    | error e' =>
      cases h
      rfl
    | ok a' => cases h
  | ok a =>
    cases x' with
    | error e' => cases h
    | ok a' => exact hk a a' (Except.ok.inj h)

theorem mapError_eq_ok {ε' : Type} {g : ε → ε'} {x : Except ε α} {a : α} :
    x.mapError g = .ok a ↔ x = .ok a := by
  cases x with
  | error e => simp [Except.mapError]
  | ok b => simp [Except.mapError]

theorem map_eq_ok {f : α → β} {x : Except ε α} {b : β} :
    x.map f = .ok b ↔ ∃ a, x = .ok a ∧ f a = b := by
  cases x with
  | error e => simp [Except.map]
  | ok a => simp [Except.map]

/-- A guard in a block that may end without a value. -/
theorem guard_eq_some {c : Prop} [Decidable c] {u : Unit} : (guard c : Option Unit) = some u ↔ c := by
  by_cases h : c
  · simp [guard, h]
  · simp [guard, h]

theorem bind_eq_some {x : Option α} {f : α → Option β} {b : β} :
    x >>= f = some b ↔ ∃ a, x = some a ∧ f a = some b :=
  Option.bind_eq_some_iff

/-- A loop that succeeds took every input to an output of its own. -/
theorem mapM_eq_ok {f : α → Except ε β} {as : List α} {bs : List β} :
    as.mapM f = .ok bs ↔ List.Forall₂ (fun a b => f a = .ok b) as bs := by
  induction as generalizing bs with
  | nil =>
    rw [List.mapM_nil, pure_eq_ok, List.forall₂_nil_left_iff]
    exact eq_comm
  | cons a as ih =>
    simp only [List.mapM_cons, bind_eq_ok, pure_eq_ok, List.forall₂_cons_left_iff]
    constructor
    · rintro ⟨b, hb, bs', hbs, rfl⟩
      exact ⟨b, bs', hb, ih.mp hbs, rfl⟩
    · rintro ⟨b, bs', hb, hbs, rfl⟩
      exact ⟨b, hb, bs', ih.mpr hbs, rfl⟩

/-- Loops whose steps agree on what is kept of an output agree on what is kept of all. -/
theorem mapM_agree {γ : Type} {f f' : α → Except ε β} {g : β → γ} (as : List α)
    (h : ∀ a, (f a).map g = (f' a).map g) :
    (as.mapM f).map (List.map g) = (as.mapM f').map (List.map g) := by
  induction as with
  | nil => rfl
  | cons a as ih =>
    rw [List.mapM_cons, List.mapM_cons, map_bind, map_bind]
    refine bind_agree (h a) fun b b' hb => ?_
    rw [map_bind, map_bind]
    refine bind_agree ih fun bs bs' hbs => ?_
    show Except.ok (g b :: bs.map g) = Except.ok (g b' :: bs'.map g)
    rw [hb, hbs]

theorem mapM_isSome {α β : Type} {f : α → Option β} (as : List α) :
    (as.mapM f).isSome ↔ ∀ a ∈ as, (f a).isSome := by
  induction as with
  | nil => simp
  | cons a as ih =>
    rw [List.mapM_cons, List.forall_mem_cons, ← ih]
    cases f a <;> cases as.mapM f <;> simp

theorem mapM_eq_some {f : α → Option β} {as : List α} {bs : List β} (h : as.mapM f = some bs) :
    List.Forall₂ (fun a b => f a = some b) as bs := by
  induction as generalizing bs with
  | nil =>
    cases h
    exact .nil
  | cons a as ih =>
    simp only [List.mapM_cons, bind_eq_some] at h
    obtain ⟨b, hb, bs', hbs, heq⟩ := h
    cases heq
    exact .cons hb (ih hbs)

theorem exists_left {R : α → β → Prop} {as : List α} {bs : List β} {b : β}
    (h : List.Forall₂ R as bs) (hb : b ∈ bs) : ∃ a ∈ as, R a b := by
  induction h with
  | nil => cases hb
  | @cons a b' as bs hab _ ih =>
    rcases List.mem_cons.mp hb with rfl | hb
    · exact ⟨a, List.mem_cons_self, hab⟩
    · obtain ⟨a', ha', hr⟩ := ih hb
      exact ⟨a', List.mem_cons_of_mem _ ha', hr⟩

theorem exists_right {R : α → β → Prop} {as : List α} {bs : List β} {a : α}
    (h : List.Forall₂ R as bs) (ha : a ∈ as) : ∃ b ∈ bs, R a b := by
  obtain ⟨b, hb, hr⟩ := exists_left h.flip ha
  exact ⟨b, hb, hr⟩

/-- Related lists are related position by position. -/
theorem exists_getElem? {R : α → β → Prop} {as : List α} {bs : List β} {i : Nat} {a : α}
    (h : List.Forall₂ R as bs) (ha : as[i]? = some a) : ∃ b, bs[i]? = some b ∧ R a b := by
  induction h generalizing i with
  | nil => cases ha
  | cons hab _ ih =>
    cases i with
    | zero =>
      cases ha
      exact ⟨_, rfl, hab⟩
    | succ i => exact ih ha

theorem exists_input {f : α → Except ε β} {as : List α} {bs : List β} {b : β}
    (h : as.mapM f = .ok bs) (hb : b ∈ bs) : ∃ a ∈ as, f a = .ok b :=
  exists_left (R := fun a b => f a = .ok b) (mapM_eq_ok.mp h) hb

theorem exists_output {f : α → Except ε β} {as : List α} {bs : List β} {a : α}
    (h : as.mapM f = .ok bs) (ha : a ∈ as) : ∃ b ∈ bs, f a = .ok b :=
  exists_right (R := fun a b => f a = .ok b) (mapM_eq_ok.mp h) ha

/-- A loop that appends one element at each round appends to the list of its inputs. -/
theorem foldlM_appends {f : List β → α → Except ε (List β)} {R : α → β → Prop}
    (hstep : ∀ acc a acc', f acc a = .ok acc' → ∃ b, acc' = acc ++ [b] ∧ R a b) {as : List α}
    {acc acc' : List β} (h : as.foldlM f acc = .ok acc') :
    ∃ bs, acc' = acc ++ bs ∧ List.Forall₂ R as bs := by
  induction as generalizing acc with
  | nil =>
    rw [List.foldlM_nil, pure_eq_ok] at h
    exact ⟨[], by rw [List.append_nil, h], .nil⟩
  | cons a as ih =>
    rw [List.foldlM_cons, bind_eq_ok] at h
    obtain ⟨next, hnext, hrest⟩ := h
    obtain ⟨b, rfl, hb⟩ := hstep _ _ _ hnext
    obtain ⟨bs, rfl, hbs⟩ := ih hrest
    exact ⟨b :: bs, by rw [List.append_assoc, List.singleton_append], .cons hb hbs⟩

/-- What every round of a loop keeps is kept by the loop. -/
theorem foldlM_invariant {I : β → Prop} {f : β → α → Except ε β} {as : List α}
    (hstep : ∀ b, ∀ a ∈ as, ∀ b', I b → f b a = .ok b' → I b') {b b' : β} (hb : I b)
    (h : as.foldlM f b = .ok b') : I b' := by
  induction as generalizing b with
  | nil =>
    rw [List.foldlM_nil, pure_eq_ok] at h
    exact h ▸ hb
  | cons a as ih =>
    rw [List.foldlM_cons, bind_eq_ok] at h
    obtain ⟨next, hnext, hrest⟩ := h
    have hkept := hstep b a List.mem_cons_self next hb hnext
    exact ih (fun b a' ha' => hstep b a' (List.mem_cons_of_mem a ha')) hkept hrest

/-- A loop that does what another one does at every input succeeds where that one does. -/
theorem mapM_related {γ ε' : Type} {f : α → Except ε β} {g : α → Except ε' γ} {R : γ → β → Prop}
    {as : List α} {bs : List β} (h : as.mapM f = .ok bs)
    (hstep : ∀ a ∈ as, ∀ b, f a = .ok b → ∃ c, g a = .ok c ∧ R c b) :
    ∃ cs, as.mapM g = .ok cs ∧ List.Forall₂ R cs bs := by
  rw [mapM_eq_ok] at h
  induction h with
  | nil => exact ⟨[], rfl, .nil⟩
  | @cons a b as bs hab _ ih =>
    obtain ⟨c, hc, hr⟩ := hstep a List.mem_cons_self b hab
    obtain ⟨cs, hcs, hrest⟩ := ih fun a' ha' => hstep a' (List.mem_cons_of_mem _ ha')
    refine ⟨c :: cs, ?_, .cons hr hrest⟩
    rw [mapM_eq_ok] at hcs ⊢
    exact .cons hc hcs

/-- Two loops over the same inputs give outputs that are related where those of each input are. -/
theorem mapM_pairs {γ ε' : Type} {f : α → Except ε β} {g : α → Except ε' γ} {R : β → γ → Prop}
    {as : List α} {bs : List β} {cs : List γ} (hf : as.mapM f = .ok bs) (hg : as.mapM g = .ok cs)
    (h : ∀ a ∈ as, ∀ b c, f a = .ok b → g a = .ok c → R b c) : List.Forall₂ R bs cs := by
  obtain ⟨found, hfound, hrel⟩ := mapM_related (R := R) hg fun a ha c hc => by
    obtain ⟨b, -, hb⟩ := exists_output hf ha
    exact ⟨b, hb, h a ha b c hb hc⟩
  rw [hf] at hfound
  cases hfound
  exact hrel

/-- Options that are related pairwise leave related lists. -/
theorem forall₂_reduceOption {R : α → β → Prop} {as : List (Option α)} {bs : List (Option β)}
    (h : List.Forall₂ (Option.Rel R) as bs) : List.Forall₂ R as.reduceOption bs.reduceOption := by
  induction h with
  | nil => exact .nil
  | cons hab _ ih =>
    cases hab with
    | none => exact ih
    | some hab => exact .cons hab ih

/-- A relation between any two inputs is one between their outputs. -/
theorem pairwise_right {R : α → β → Prop} {S : α → α → Prop} {T : β → β → Prop} {as : List α}
    {bs : List β} (hT : ∀ a b a' b', R a b → R a' b' → S a a' → T b b')
    (h : List.Forall₂ R as bs) (hS : as.Pairwise S) : bs.Pairwise T := by
  induction h with
  | nil => exact .nil
  | @cons a b as bs hab hrest ih =>
    obtain ⟨hhead, htail⟩ := List.pairwise_cons.mp hS
    refine List.pairwise_cons.mpr ⟨fun b' hb' => ?_, ih htail⟩
    obtain ⟨a', ha', hr⟩ := exists_left hrest hb'
    exact hT a b a' b' hab hr (hhead a' ha')

/-- A loop that passes some inputs over keeps the keys of the others, in order. -/
theorem reduceOption_sublist {κ : Type} {f : α → Except ε (Option β)} {key : β → κ} {key' : α → κ}
    {as : List α} {bs : List (Option β)} (h : as.mapM f = .ok bs)
    (hkey : ∀ a b, f a = .ok (some b) → key b = key' a) :
    (bs.reduceOption.map key).Sublist (as.map key') := by
  rw [mapM_eq_ok] at h
  induction h with
  | nil => exact List.nil_sublist _
  | @cons a b as bs hab _ ih =>
    cases b with
    | none =>
      rw [List.reduceOption_cons_of_none]
      exact ih.cons _
    | some b =>
      rw [List.reduceOption_cons_of_some, List.map_cons, List.map_cons, hkey a b hab]
      exact ih.cons_cons _

/-! ## What a computation fails with -/

/-- Every error the computation may end with satisfies `P`. -/
def FailsWith (P : ε → Prop) (x : Except ε α) : Prop := ∀ e, x = .error e → P e

namespace FailsWith

variable {P : ε → Prop}

theorem pure (a : α) : FailsWith P (Pure.pure a : Except ε α) := fun _ h => absurd h pure_ne_error

theorem ensure {c : Prop} [Decidable c] {e : ε} (h : ¬ c → P e) : FailsWith P (ensure c e) := by
  intro e' he
  obtain ⟨hc, rfl⟩ := ensure_eq_error.mp he
  exact h hc

theorem fetch {o : Option α} {e : ε} (h : o = none → P e) : FailsWith P (fetch o e) := by
  intro e' he
  obtain ⟨ho, rfl⟩ := fetch_eq_error.mp he
  exact h ho

theorem bind {x : Except ε α} {f : α → Except ε β} (hx : FailsWith P x)
    (hf : ∀ a, x = .ok a → FailsWith P (f a)) : FailsWith P (x >>= f) := by
  intro e he
  rcases bind_eq_error.mp he with he | ⟨a, ha, he⟩
  · exact hx e he
  · exact hf a ha e he

theorem mapM {f : α → Except ε β} {as : List α} (h : ∀ a ∈ as, FailsWith P (f a)) :
    FailsWith P (as.mapM f) := by
  induction as with
  | nil => exact pure []
  | cons a as ih =>
    rw [List.mapM_cons]
    refine bind (h a List.mem_cons_self) fun b _ => ?_
    exact bind (ih fun a' ha' => h a' (List.mem_cons_of_mem _ ha')) fun bs _ => pure _

theorem foldlM {f : β → α → Except ε β} {as : List α} (h : ∀ b, ∀ a ∈ as, FailsWith P (f b a))
    (b : β) : FailsWith P (as.foldlM f b) := by
  induction as generalizing b with
  | nil => exact pure b
  | cons a as ih =>
    rw [List.foldlM_cons]
    refine bind (h b a List.mem_cons_self) fun b' _ => ?_
    exact ih (fun b a' ha' => h b a' (List.mem_cons_of_mem _ ha')) b'

end FailsWith

end Library
