import Mathlib.Data.List.Pairwise
import ShaponTravels.Library.Table

/-!
# Fenced — writes under a lease, and at most one that may have got through

A row is worked on by attempts, one at a time.  An attempt writes or reads; it ends with an outcome,
and one outcome says that nothing was sent.  The log of a row is sound when every write but the last
ended so: then at most one write may ever have reached the other side.
-/

namespace Library.Fenced

structure Entry (τ ω : Type) where
  token : τ
  write : Bool
  outcome : Option ω
  deriving DecidableEq

/-- What the state of a row says about its log. -/
inductive Phase (τ : Type) where
  /-- every attempt so far was spent -/
  | idle
  | writing (t : τ)
  | reading (t : τ)
  /-- no attempt is open -/
  | closed

variable {τ ω : Type}

/-! ## Sound logs -/

section Logs

variable [DecidableEq ω]

/-- A write that ended with nothing sent. -/
def Entry.spent (notSent : ω) (e : Entry τ ω) : Bool := e.write && e.outcome = some notSent

/-- At most `limit` writes, none after an attempt that was not spent, and one open attempt at a
time. -/
structure Sound (notSent : ω) (limit : Nat) (log : List (Entry τ ω)) : Prop where
  tokens : KeyUnique Entry.token log
  bound : log.countP Entry.write ≤ limit
  ordered : log.Pairwise fun a b => a.outcome.isSome ∧ (b.write → a.spent notSent)

/-- The phase of a row agrees with its log. -/
def Agrees (notSent : ω) : Phase τ → List (Entry τ ω) → Prop
  | .idle, log => ∀ e ∈ log, e.spent notSent
  | .writing t, log => ∃ l, log = l ++ [⟨t, true, none⟩]
  | .reading t, log => ∃ l, log = l ++ [⟨t, false, none⟩]
  | .closed, log => ∀ e ∈ log, e.outcome.isSome

variable {notSent : ω} {limit : Nat} {log : List (Entry τ ω)} {t : τ} {e : Entry τ ω}

theorem Entry.spent_iff : e.spent notSent ↔ e.write ∧ e.outcome = some notSent := by
  simp [Entry.spent]

theorem Entry.isSome_of_spent (h : e.spent notSent) : e.outcome.isSome := by
  rw [(Entry.spent_iff.mp h).2]
  rfl

theorem sound_nil : Sound notSent limit ([] : List (Entry τ ω)) := ⟨.nil, Nat.zero_le _, .nil⟩

theorem agrees_nil : Agrees notSent .idle ([] : List (Entry τ ω)) := by
  intro e he
  cases he

theorem Sound.concat (h : Sound notSent limit log) (hfresh : ∀ e ∈ log, e.token ≠ t)
    (hclosed : ∀ e ∈ log, e.outcome.isSome) {w : Bool} {u : Option ω}
    (hwrite : w → log.countP Entry.write < limit ∧ ∀ e ∈ log, e.spent notSent) :
    Sound notSent limit (log ++ [⟨t, w, u⟩]) := by
  refine ⟨keyUnique_concat.mpr ⟨h.tokens, hfresh⟩, ?_, ?_⟩
  · rw [List.countP_append, List.countP_singleton]
    cases w with
    | false => simpa using h.bound
    | true =>
      have hlt := (hwrite rfl).1
      simp only [if_true]
      omega
  · rw [List.pairwise_append]
    refine ⟨h.ordered, List.pairwise_singleton _ _, ?_⟩
    intro a ha b hb
    rw [List.mem_singleton.mp hb]
    exact ⟨hclosed a ha, fun hw => (hwrite hw).2 a ha⟩

/-- What comes before the last attempt. -/
theorem Sound.init (h : Sound notSent limit (log ++ [e])) :
    Sound notSent limit log ∧ (∀ a ∈ log, a.token ≠ e.token) ∧ (∀ a ∈ log, a.outcome.isSome) ∧
      (e.write → log.countP Entry.write < limit ∧ ∀ a ∈ log, a.spent notSent) := by
  obtain ⟨hbefore, -, hcross⟩ := List.pairwise_append.mp h.ordered
  obtain ⟨hunique, hnew⟩ := keyUnique_concat.mp h.tokens
  have hbound := h.bound
  rw [List.countP_append, List.countP_singleton] at hbound
  have hlast : ∀ a ∈ log, a.outcome.isSome ∧ (e.write → a.spent notSent) :=
    fun a ha => hcross a ha e (List.mem_singleton_self e)
  refine ⟨⟨hunique, by omega, hbefore⟩, hnew, fun a ha => (hlast a ha).1, fun hw => ⟨?_, ?_⟩⟩
  · rw [hw] at hbound
    simp only [if_true] at hbound
    omega
  · exact fun a ha => (hlast a ha).2 hw

/-- Of any two writes one was spent. -/
theorem Sound.spent_or (h : Sound notSent limit log) {a b : Entry τ ω} (ha : a ∈ log) (hb : b ∈ log)
    (hne : a ≠ b) (hwa : a.write) (hwb : b.write) : a.spent notSent ∨ b.spent notSent := by
  let either := fun x y : Entry τ ω => x.write → y.write → x.spent notSent ∨ y.spent notSent
  have hordered : log.Pairwise either := h.ordered.imp fun hxy _ hw => .inl (hxy.2 hw)
  have hsymm : Std.Symm either := ⟨fun _ _ hxy hwx hwy => (hxy hwy hwx).symm⟩
  exact hordered.forall ha hb hne hwa hwb

end Logs

/-! ## Recording -/

section Recording

variable [DecidableEq τ]

/-- The outcome of an attempt that has none is set. -/
def record (t : τ) (o : ω) (log : List (Entry τ ω)) : List (Entry τ ω) :=
  modify Entry.token t (fun e => if e.outcome = none then { e with outcome := some o } else e) log

variable {log : List (Entry τ ω)} {t : τ} {o : ω}

/-- Only the open attempt at the end is changed by an outcome for it. -/
theorem record_concat {w : Bool} (hnew : ∀ e ∈ log, e.token ≠ t) :
    record t o (log ++ [⟨t, w, none⟩]) = log ++ [⟨t, w, some o⟩] := by
  have hlog : record t o log = log := modify_of_absent hnew
  unfold record modify at hlog ⊢
  rw [List.map_append, hlog]
  simp

theorem map_write_record : (record t o log).map Entry.write = log.map Entry.write :=
  map_modify (fun e => by split <;> rfl) log

theorem countP_write_record : (record t o log).countP Entry.write = log.countP Entry.write := by
  have hcount : ∀ log : List (Entry τ ω), log.countP Entry.write = (log.map Entry.write).countP id :=
    fun log => by rw [List.countP_map]; rfl
  rw [hcount, map_write_record, ← hcount]

end Recording

/-! ## Steps -/

section Steps

variable [DecidableEq τ] [DecidableEq ω]

/-- What may happen to a row. -/
inductive Step (notSent : ω) (limit : Nat) :
    Phase τ × List (Entry τ ω) → Phase τ × List (Entry τ ω) → Prop where
  | write (t : τ) (log : List (Entry τ ω)) (hfresh : ∀ e ∈ log, e.token ≠ t)
      (hlimit : log.countP Entry.write < limit) :
      Step notSent limit (.idle, log) (.writing t, log ++ [⟨t, true, none⟩])
  | read (t : τ) (log : List (Entry τ ω)) (hfresh : ∀ e ∈ log, e.token ≠ t) :
      Step notSent limit (.closed, log) (.reading t, log ++ [⟨t, false, none⟩])
  | spend (t : τ) (log : List (Entry τ ω)) :
      Step notSent limit (.writing t, log) (.idle, record t notSent log)
  | answer (p : Phase τ) (t : τ) (o : ω) (log : List (Entry τ ω))
      (hp : p = .writing t ∨ p = .reading t) :
      Step notSent limit (p, log) (.closed, record t o log)

variable {notSent : ω} {limit : Nat} {s s' : Phase τ × List (Entry τ ω)}

/-- Every step keeps a log sound and in agreement with its phase. -/
theorem Step.sound (hstep : Step notSent limit s s') (h : Sound notSent limit s.2)
    (hagrees : Agrees notSent s.1 s.2) : Sound notSent limit s'.2 ∧ Agrees notSent s'.1 s'.2 := by
  cases hstep with
  | write t log hfresh hlimit =>
    have hclosed : ∀ e ∈ log, e.outcome.isSome := fun e he => Entry.isSome_of_spent (hagrees e he)
    exact ⟨h.concat hfresh hclosed fun _ => ⟨hlimit, hagrees⟩, log, rfl⟩
  | read t log hfresh =>
    exact ⟨h.concat hfresh hagrees (fun hw => by cases hw), log, rfl⟩
  | spend t log =>
    obtain ⟨l, hl⟩ := hagrees
    simp only at hl h
    subst hl
    obtain ⟨hl, hnew, hclosed, hwrite⟩ := h.init
    show Sound notSent limit (record t notSent (l ++ [⟨t, true, none⟩])) ∧
      Agrees notSent .idle (record t notSent (l ++ [⟨t, true, none⟩]))
    rw [record_concat hnew]
    refine ⟨hl.concat hnew hclosed fun _ => hwrite rfl, ?_⟩
    intro e he
    rcases List.mem_append.mp he with he | he
    · exact (hwrite rfl).2 e he
    · rw [List.mem_singleton.mp he]
      exact Entry.spent_iff.mpr ⟨rfl, rfl⟩
  | answer p t o log hp =>
    obtain ⟨w, l, hl⟩ : ∃ w l, log = l ++ [⟨t, w, none⟩] := by
      rcases hp with rfl | rfl
      · exact ⟨true, hagrees⟩
      · exact ⟨false, hagrees⟩
    simp only at hl h
    subst hl
    obtain ⟨hl, hnew, hclosed, hwrite⟩ := h.init
    show Sound notSent limit (record t o (l ++ [⟨t, w, none⟩])) ∧
      Agrees notSent .closed (record t o (l ++ [⟨t, w, none⟩]))
    rw [record_concat hnew]
    refine ⟨hl.concat hnew hclosed hwrite, ?_⟩
    intro e he
    rcases List.mem_append.mp he with he | he
    · exact hclosed e he
    · rw [List.mem_singleton.mp he]
      rfl

end Steps

end Library.Fenced
