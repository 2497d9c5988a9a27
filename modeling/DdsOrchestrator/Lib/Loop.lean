import Mathlib.Data.List.Basic

/-!
State-passing code with early return. A body keeps the state it has reached
when it fails, as a method behind `&mut self` does, so the result of a call is
an `Except` value next to a state. `atomically` is the exception to that: a
transaction dropped before its commit.

`forEach` is the `for` loop over such bodies that adds up what its iterations
count and stops at the first failure.
-/

namespace DdsOrchestrator.Loop

variable {σ ε : Type*} {α : Type _}

/-- A check with an early return. -/
def ensure (p : Prop) [Decidable p] (e : ε) : Except ε Unit :=
  if p then .ok () else .error e

@[simp] theorem ensure_eq_ok {p : Prop} [Decidable p] {e : ε} {u : Unit} :
    ensure p e = .ok u ↔ p := by
  by_cases h : p <;> simp [ensure, h]

/-- What has to hold for a sequence of fallible steps to succeed. -/
theorem bind_eq_ok {β : Type*} {x : Except ε α} {f : α → Except ε β} {b : β} :
    (x >>= f) = .ok b ↔ ∃ a, x = .ok a ∧ f a = .ok b := by
  cases x <;> simp [bind, Except.bind]

/-- A transaction: the state changes only when the body succeeds. -/
def atomically (body : σ → Except ε (α × σ)) (s : σ) : Except ε α × σ :=
  match body s with
  | .ok (a, s') => (.ok a, s')
  | .error e => (.error e, s)

theorem atomically_of_ok {body : σ → Except ε (α × σ)} {s s' : σ} {a : α}
    (h : body s = .ok (a, s')) : atomically body s = (.ok a, s') := by
  simp [atomically, h]

theorem atomically_of_error {body : σ → Except ε (α × σ)} {s : σ} {e : ε}
    (h : body s = .error e) : atomically body s = (.error e, s) := by
  simp [atomically, h]

/-- Sequencing with early return: what follows runs only after a success. -/
def andThen {β : Type*} (r : Except ε α × σ) (k : α → σ → Except ε β × σ) : Except ε β × σ :=
  match r with
  | (.ok a, s) => k a s
  | (.error e, s) => (.error e, s)

theorem andThen_rec {β : Type*} {r : Except ε α × σ} {k : α → σ → Except ε β × σ} {Q : σ → Prop}
    (herr : ∀ e, r.1 = .error e → Q r.2) (hok : ∀ a, r.1 = .ok a → Q (k a r.2).2) :
    Q (andThen r k).2 := by
  obtain ⟨_ | _, s⟩ := r
  · exact herr _ rfl
  · exact hok _ rfl

/-- What a sequence that succeeded has run. -/
theorem andThen_eq_ok {β : Type*} {r : Except ε α × σ} {k : α → σ → Except ε β × σ} {b : β}
    (h : (andThen r k).1 = .ok b) : ∃ a, r.1 = .ok a ∧ andThen r k = k a r.2 := by
  obtain ⟨_ | a, s⟩ := r
  · cases h
  · exact ⟨a, rfl, rfl⟩

/-- Returning a value afterwards does not change the state. -/
@[simp] theorem andThen_ok_snd {β : Type*} (r : Except ε α × σ) (b : β) :
    (andThen r fun _ s => (.ok b, s)).2 = r.2 := by
  obtain ⟨_ | _, s⟩ := r <;> rfl

/-- Run `body` on each element, adding up the counts; the first failure ends
the loop with the state reached there. -/
def forEach (body : α → σ → Except ε Nat × σ) : List α → σ → Except ε Nat × σ
  | [], s => (.ok 0, s)
  | x :: xs, s =>
      match body x s with
      | (.error e, s') => (.error e, s')
      | (.ok n, s') =>
          match forEach body xs s' with
          | (.error e, s'') => (.error e, s'')
          | (.ok m, s'') => (.ok (n + m), s'')

variable {body : α → σ → Except ε Nat × σ}

@[simp] theorem forEach_nil (s : σ) : forEach body [] s = (.ok 0, s) := rfl

@[simp] theorem forEach_singleton_snd (x : α) (s : σ) :
    (forEach body [x] s).2 = (body x s).2 := by
  rcases h : body x s with ⟨_ | _, _⟩ <;> simp [forEach, h]

theorem forEach_cons_error {x : α} {xs : List α} {s s' : σ} {e : ε}
    (h : body x s = (.error e, s')) : forEach body (x :: xs) s = (.error e, s') := by
  simp [forEach, h]

theorem forEach_cons_ok {x : α} {xs : List α} {s s' : σ} {n : Nat}
    (h : body x s = (.ok n, s')) :
    (forEach body (x :: xs) s).2 = (forEach body xs s').2 ∧
      ((forEach body (x :: xs) s).1.isOk = (forEach body xs s').1.isOk) := by
  simp only [forEach, h]
  split <;> rename_i heq <;> simp [heq, Except.isOk, Except.toBool]

/-- The invariant rule for loops. -/
theorem forEach_invariant {I : σ → Prop} {xs : List α} {s : σ} (hs : I s)
    (hbody : ∀ x ∈ xs, ∀ t, I t → I (body x t).2) : I (forEach body xs s).2 := by
  induction xs generalizing s with
  | nil => exact hs
  | cons x xs ih =>
      have hx := hbody x (by simp) s hs
      rcases hb : body x s with ⟨_ | n, s'⟩
      · rw [forEach_cons_error hb]
        simpa [hb] using hx
      · rw [(forEach_cons_ok hb).1]
        rw [hb] at hx
        exact ih hx (fun y hy t ht => hbody y (by simp [hy]) t ht)

/-- The invariant rule that keeps account of the elements still to come; a loop
that fails leaves some of them. -/
theorem forEach_consumes {I : List α → σ → Prop} {xs : List α} {s : σ} (hs : I xs s)
    (hbody : ∀ x rest t, I (x :: rest) t → I rest (body x t).2) :
    ∃ rest, I rest (forEach body xs s).2 := by
  induction xs generalizing s with
  | nil => exact ⟨[], hs⟩
  | cons x xs ih =>
      have hx := hbody x xs s hs
      rcases hb : body x s with ⟨_ | n, s'⟩
      · rw [forEach_cons_error hb]
        rw [hb] at hx
        exact ⟨xs, hx⟩
      · rw [(forEach_cons_ok hb).1]
        rw [hb] at hx
        exact ih hx

/-- What one iteration of a loop that returned `Ok` establishes, and every
iteration keeps, holds when the loop is over. -/
theorem forEach_establishes {I P : σ → Prop} {xs : List α} {s : σ} {x : α}
    (hok : (forEach body xs s).1.isOk) (hx : x ∈ xs) (hs : I s)
    (hbody : ∀ y ∈ xs, ∀ t, I t → I (body y t).2)
    (hmake : ∀ t, I t → (body x t).1.isOk → P (body x t).2)
    (hkeep : ∀ y ∈ xs, ∀ t, I t → P t → P (body y t).2) :
    P (forEach body xs s).2 := by
  induction xs generalizing s with
  | nil => simp at hx
  | cons y ys ih =>
      rcases hb : body y s with ⟨e | n, s'⟩
      · rw [forEach_cons_error hb] at hok
        simp [Except.isOk, Except.toBool] at hok
      · obtain ⟨hstate, hresult⟩ : (forEach body (y :: ys) s).2 = (forEach body ys s').2 ∧ _ :=
          forEach_cons_ok hb
        rw [hresult] at hok
        rw [hstate]
        have hI : I s' := by simpa [hb] using hbody y (by simp) s hs
        have hrest : ∀ z ∈ ys, ∀ t, I t → I (body z t).2 :=
          fun z hz t ht => hbody z (by simp [hz]) t ht
        rcases List.mem_cons.mp hx with rfl | hmem
        · have hP : P s' := by
            simpa [hb] using hmake s hs (by simp [hb, Except.isOk, Except.toBool])
          exact (forEach_invariant (I := fun t => I t ∧ P t) ⟨hI, hP⟩
            (fun z hz t ht => ⟨hrest z hz t ht.1, hkeep z (by simp [hz]) t ht.1 ht.2⟩)).2
        · exact ih hok hmem hI hrest
            (fun z hz t ht hPt => hkeep z (by simp [hz]) t ht hPt)

/-- What the iterations of a loop show, each in the state in which it begins, up
to the failure that ends the loop. -/
def traceEach {β : Type*} (obs : α → σ → Option β) (body : α → σ → Except ε Nat × σ) :
    List α → σ → List β
  | [], _ => []
  | x :: xs, s =>
      (obs x s).toList ++
        match body x s with
        | (.error _, _) => []
        | (.ok _, s') => traceEach obs body xs s'

/-- The invariant rule with an account of what the loop has shown so far. -/
theorem traceEach_invariant {β : Type*} {obs : α → σ → Option β} {I : List β → σ → Prop}
    {xs : List α} {s : σ} {bs : List β} (hs : I bs s)
    (hbody : ∀ x ∈ xs, ∀ cs t, I cs t → I (cs ++ (obs x t).toList) (body x t).2) :
    I (bs ++ traceEach obs body xs s) (forEach body xs s).2 := by
  induction xs generalizing s bs with
  | nil => simpa [traceEach] using hs
  | cons x xs ih =>
      have hx := hbody x (by simp) bs s hs
      rw [traceEach, ← List.append_assoc]
      rcases hout : body x s with ⟨e | n, s'⟩
      · rw [hout] at hx
        rw [forEach_cons_error hout]
        simpa using hx
      · rw [hout] at hx
        rw [(forEach_cons_ok hout).1]
        exact ih hx fun y hy => hbody y (by simp [hy])

end DdsOrchestrator.Loop
