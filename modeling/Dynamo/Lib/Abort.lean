import Mathlib.Logic.Basic

/-!
# Calls That Do Not Return

A Rust function can fail to return a value in two ways that its type does not
show: it can panic, and a loop in it can run forever. `Abort` names the two,
and a modelled function that can do either returns `Except Abort _`, keeping
the function's own `Result` errors, where it has them, as ordinary values
inside.

Loops are modelled with an explicit bound on their passes, and running out of
the bound is `Abort.diverge`. A theorem that a loop terminates is then a
theorem that the result is not `Abort.diverge`, which is a statement about
the model and not an assumption built into it.

## Main definitions

* `Abort`: A panic with its message, or a loop that does not finish.
* `Abort.expect`, `Abort.assertTrue`: `Option::expect` and `assert!`.

## Theorems

* `Except.bind_eq_ok`: Peeling the first step off a successful bind.
* `Except.bind_eq_ok_iff_checked`: A bind with checks succeeds where the bind
  without them does with a result that passes.
* `Except.mapError_eq_ok`: Relabelling errors keeps successes.
* `Except.foldlM_eq_ok_of_step`: A loop that keeps an invariant succeeds.
* `Except.mapM_eq_ok`, `Except.mapM_eq_error`: Collecting results.
* `Except.map_eq_of_mapM_eq_ok`, `Except.mem_of_mapM_eq_ok`: What collected
  results keep of their elements.
-/

/-- How a call ends when it returns nothing: a panic with its message, or a
    loop that never exits. -/
inductive Abort where
  | panic (msg : String)
  | diverge
  deriving DecidableEq, Repr

universe u v

namespace Except

variable {ε : Type u} {α β : Type v}

@[simp]
theorem ok_bind (a : α) (f : α → Except ε β) : (Except.ok a >>= f) = f a := rfl

theorem map_eq_bind (f : α → β) (x : Except ε α) : x.map f = x >>= fun a => .ok (f a) := by
  cases x <;> rfl

/-- A bind that succeeds ran its first computation to a value. -/
theorem bind_eq_ok {x : Except ε α} {f : α → Except ε β} {b : β} (h : (x >>= f) = .ok b) :
    ∃ a, x = .ok a ∧ f a = .ok b := by
  cases x with
  | error e => exact absurd h (by simp only [bind, Except.bind, reduceCtorEq, not_false_eq_true])
  | ok a => exact ⟨a, rfl, h⟩

/-- A computation with checks, \`x >>= f\`, against the same computation
    without them, \`y >>= g\`: where each half succeeds exactly when its
    unchecked half does with a value that passes its check, and a result that
    passes implies that the value in the middle did, the whole succeeds
    exactly when the unchecked whole does with a result that passes. -/
theorem bind_eq_ok_iff_checked {x y : Except ε α} {f g : α → Except ε β} {P : α → Prop}
    {Q : β → Prop} (hx : ∀ a, x = .ok a ↔ y = .ok a ∧ P a)
    (hf : ∀ a, P a → ∀ b, f a = .ok b ↔ g a = .ok b ∧ Q b)
    (hmid : ∀ a b, g a = .ok b → Q b → P a) (b : β) :
    (x >>= f) = .ok b ↔ (y >>= g) = .ok b ∧ Q b := by
  constructor
  · intro h
    obtain ⟨a, hxa, hfa⟩ := bind_eq_ok h
    obtain ⟨hya, hPa⟩ := (hx a).mp hxa
    rw [hya, ok_bind]
    exact (hf a hPa b).mp hfa
  · rintro ⟨h, hQb⟩
    obtain ⟨a, hya, hga⟩ := bind_eq_ok h
    have hPa := hmid a b hga hQb
    rw [(hx a).mpr ⟨hya, hPa⟩, ok_bind]
    exact (hf a hPa b).mpr ⟨hga, hQb⟩

/-- Relabelling the error of a success changes nothing. -/
theorem mapError_eq_ok {ε' : Type u} {x : Except ε α} {f : ε → ε'} {a : α} :
    x.mapError f = .ok a ↔ x = .ok a := by
  cases x with
  | error e => constructor <;> intro h <;> cases h
  | ok b =>
      constructor
      · intro h
        cases h
        rfl
      · intro h
        cases h
        rfl

/-- A loop invariant for a loop over a list in `Except`: when every step from
    a state with the invariant succeeds with a state that has it, the whole
    loop does. -/
theorem foldlM_eq_ok_of_step {σ : Type v} {f : σ → α → Except ε σ} (P : σ → Prop)
    (hf : ∀ s a, P s → ∃ s', f s a = .ok s' ∧ P s') :
    ∀ (l : List α) (s : σ), P s → ∃ s', l.foldlM f s = .ok s' ∧ P s'
  | [], s, hs => ⟨s, rfl, hs⟩
  | a :: l, s, hs => by
      obtain ⟨s₁, hs₁, hP₁⟩ := hf s a hs
      rw [List.foldlM_cons, hs₁]
      exact foldlM_eq_ok_of_step P hf l s₁ hP₁

/-- `collect::<Result<Vec<_>, _>>()` over calls that all succeed. -/
theorem mapM_eq_ok {f : α → Except ε β} {g : α → β} :
    ∀ {l : List α}, (∀ x ∈ l, f x = .ok (g x)) → l.mapM f = .ok (l.map g)
  | [], _ => rfl
  | x :: l, h => by
      rw [List.mapM_cons, h x (List.mem_cons_self ..),
        mapM_eq_ok fun y hy => h y (List.mem_cons_of_mem x hy)]
      rfl

/-- `collect::<Result<Vec<_>, _>>()` over calls that succeed or fail with one
    error, one of which fails: the first failure is that error. -/
theorem mapM_eq_error {f : α → Except ε β} {e : ε} :
    ∀ {l : List α}, (∀ x ∈ l, f x = .error e ∨ ∃ y, f x = .ok y) → (∃ x ∈ l, f x = .error e) →
      l.mapM f = .error e
  | [], _, ⟨_, hx, _⟩ => absurd hx List.not_mem_nil
  | x :: l, hall, ⟨z, hz, hfail⟩ => by
      rw [List.mapM_cons]
      rcases hall x (List.mem_cons_self ..) with hx | ⟨y, hy⟩
      · rw [hx]
        rfl
      · -- the head succeeds, so the failure is in the rest
        have hrest : ∃ z ∈ l, f z = .error e := by
          rcases List.mem_cons.mp hz with rfl | hz
          · rw [hy] at hfail
            cases hfail
          · exact ⟨z, hz, hfail⟩
        rw [hy, ok_bind, mapM_eq_error (fun y hy => hall y (List.mem_cons_of_mem x hy)) hrest]
        rfl

/-- A `collect::<Result<Vec<_>, _>>()` that succeeds keeps what each call
    keeps of its element. -/
theorem map_eq_of_mapM_eq_ok {γ : Type*} {f : α → Except ε β} {p : α → γ} {q : β → γ}
    (hpq : ∀ a b, f a = .ok b → q b = p a) :
    ∀ {l : List α} {l' : List β}, l.mapM f = .ok l' → l'.map q = l.map p
  | [], _, h => by
      cases h
      rfl
  | x :: l, l', h => by
      rw [List.mapM_cons] at h
      obtain ⟨y, hy, h'⟩ := bind_eq_ok h
      obtain ⟨ys, hys, h''⟩ := bind_eq_ok h'
      have hl' : l' = y :: ys := (Except.ok.inj h'').symm
      rw [hl', List.map_cons, List.map_cons, hpq x y hy, map_eq_of_mapM_eq_ok hpq hys]

/-- Each result of a `collect::<Result<Vec<_>, _>>()` that succeeds is the
    result of an element. -/
theorem mem_of_mapM_eq_ok {f : α → Except ε β} :
    ∀ {l : List α} {l' : List β}, l.mapM f = .ok l' → ∀ b ∈ l', ∃ a ∈ l, f a = .ok b
  | [], _, h, b, hb => by
      cases h
      exact absurd hb List.not_mem_nil
  | x :: l, l', h, b, hb => by
      rw [List.mapM_cons] at h
      obtain ⟨y, hy, h'⟩ := bind_eq_ok h
      obtain ⟨ys, hys, h''⟩ := bind_eq_ok h'
      have hl' : l' = y :: ys := (Except.ok.inj h'').symm
      rw [hl'] at hb
      rcases List.mem_cons.mp hb with rfl | hb
      · exact ⟨x, List.mem_cons_self, hy⟩
      · obtain ⟨a, ha, hfa⟩ := mem_of_mapM_eq_ok hys b hb
        exact ⟨a, List.mem_cons_of_mem x ha, hfa⟩

end Except

namespace Abort

/-- `Option::expect`: the value, or a panic with the message. -/
def expect {α : Type*} (o : Option α) (msg : String) : Except Abort α :=
  match o with
  | some a => .ok a
  | none => .error (.panic msg)

@[simp]
theorem expect_some {α : Type*} (a : α) (msg : String) : expect (some a) msg = .ok a := rfl

/-- `assert!(cond, msg)`: nothing, or a panic with the message. -/
def assertTrue (cond : Bool) (msg : String) : Except Abort Unit :=
  if cond then .ok () else .error (.panic msg)

@[simp]
theorem assertTrue_true (msg : String) : assertTrue true msg = .ok () := rfl

end Abort
