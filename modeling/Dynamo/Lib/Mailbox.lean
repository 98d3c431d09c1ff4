import Mathlib.Logic.Relation
import Mathlib.Logic.Function.Basic
import Mathlib.Data.List.Perm.Basic

/-!
# Actors Behind a Biased Select

An actor owns a state and two bounded FIFO channels, and runs the loop
`select! { biased; urgent => .., normal => .. }`: it serves the urgent
channel while that has a message, and the normal channel only when the
urgent one is empty. A single owner holds the senders of several such actors.
It goes through its calls one at a time; each call updates the owner's own
state and sends at most one message to one actor, and the send waits for
room in the channel. The owner and the actors run in any interleaving.

Every send is awaited, so the messages reach each actor in the order the
owner sends them. They need not be served in that order: an urgent message
can be served before a normal message sent ahead of it that is still queued.
That is the only freedom. Two urgent messages, or two normal ones, keep
their order, and an urgent message is never served after a normal message
sent after it, because the normal one is only taken when no urgent message
is queued. `Reorder` is the set of orders this allows: urgent messages moved
ahead of earlier normal ones.

`reachable_consistent` follows every actor through any interleaving: its
state is always its initial state after serving some prefix of such an
order, and the rest of the order is what it has queued and what the owner
will still send it. Once the owner is done and the channels are empty
(`drained_serves`), every actor's state is its initial state after serving
all its messages in one order of `Reorder`. That point is always reachable
(`reaches_drained`).

## Main definitions

* `Mailbox.Reorder`: The orders a biased actor may serve its messages in.
* `Mailbox.Actors`: The owner's routing, the channel bounds and the handlers.
* `Mailbox.Actors.Step`: One send of the owner or one pass of an actor's
  loop.

## Theorems

* `Mailbox.Reorder.move_urgent`: An urgent message overtakes a run of normal
  ones.
* `Mailbox.Reorder.invariant`: What every overtake keeps, a reorder keeps.
* `Mailbox.Reorder.perm`, `Mailbox.Reorder.filterMap_getLeft`,
  `Mailbox.Reorder.filterMap_getRight`: A reorder keeps the messages and the
  order within each channel.
* `Mailbox.Actors.reachable_consistent`, `Mailbox.Actors.drained_serves`:
  What the actors have served, in any interleaving.
* `Mailbox.Actors.reaches_drained`: Every interleaving can be run to the end.
-/

namespace Mailbox

variable {ι ρ γ σ α β : Type*}

section Reorder

/-- `l'` is `l` with one urgent message moved ahead of the normal message
    just before it. -/
inductive Overtake : List (α ⊕ β) → List (α ⊕ β) → Prop
  | swap (l₁ l₂ : List (α ⊕ β)) (b : β) (a : α) :
      Overtake (l₁ ++ .inr b :: .inl a :: l₂) (l₁ ++ .inl a :: .inr b :: l₂)

/-- The orders a biased actor may serve `l` in: urgent messages moved ahead
    of normal messages sent before them. -/
def Reorder (l l' : List (α ⊕ β)) : Prop :=
  Relation.ReflTransGen Overtake l l'

theorem Overtake.append_left {l l' : List (α ⊕ β)} (h : Overtake l l') (p : List (α ⊕ β)) :
    Overtake (p ++ l) (p ++ l') := by
  rcases h with ⟨l₁, l₂, b, a⟩
  simpa only [List.append_assoc] using Overtake.swap (p ++ l₁) l₂ b a

theorem Reorder.refl (l : List (α ⊕ β)) : Reorder l l :=
  Relation.ReflTransGen.refl

theorem Reorder.trans {l l' l'' : List (α ⊕ β)} (h : Reorder l l') (h' : Reorder l' l'') :
    Reorder l l'' :=
  Relation.ReflTransGen.trans h h'

theorem Reorder.append_left {l l' : List (α ⊕ β)} (h : Reorder l l') (p : List (α ⊕ β)) :
    Reorder (p ++ l) (p ++ l') := by
  induction h with
  | refl => exact Reorder.refl _
  | tail _ hstep ih => exact Relation.ReflTransGen.tail ih (hstep.append_left p)

/-- An urgent message overtakes a whole run of normal messages. -/
theorem Reorder.move_urgent (l₁ l₂ : List (α ⊕ β)) (bs : List β) (a : α) :
    Reorder (l₁ ++ bs.map .inr ++ .inl a :: l₂) (l₁ ++ .inl a :: (bs.map .inr ++ l₂)) := by
  induction bs generalizing l₁ with
  | nil => simpa using Reorder.refl (l₁ ++ .inl a :: l₂)
  | cons b bs ih =>
      -- first past the rest of the run, then past `b`
      have hrest := ih (l₁ ++ [.inr b])
      simp only [List.append_assoc, List.singleton_append] at hrest
      refine Relation.ReflTransGen.tail ?_ (Overtake.swap l₁ (bs.map .inr ++ l₂) b a)
      simp only [List.map_cons, List.append_assoc, List.cons_append] at hrest ⊢
      exact hrest

theorem Overtake.perm {l l' : List (α ⊕ β)} (h : Overtake l l') : l.Perm l' := by
  rcases h with ⟨l₁, l₂, b, a⟩
  exact List.Perm.append_left l₁ (List.Perm.swap _ _ _)

/-- A reorder serves the same messages. -/
theorem Reorder.perm {l l' : List (α ⊕ β)} (h : Reorder l l') : l.Perm l' := by
  induction h with
  | refl => exact List.Perm.refl _
  | tail _ hstep ih => exact ih.trans hstep.perm

/-- What every overtake keeps, a reorder keeps. -/
theorem Reorder.invariant {γ : Type*} {f : List (α ⊕ β) → γ}
    (hstep : ∀ {l l' : List (α ⊕ β)}, Overtake l l' → f l' = f l) {l l' : List (α ⊕ β)}
    (h : Reorder l l') : f l' = f l := by
  induction h with
  | refl => rfl
  | tail _ hlast ih => exact (hstep hlast).trans ih

theorem Overtake.filterMap_getLeft {l l' : List (α ⊕ β)} (h : Overtake l l') :
    l'.filterMap Sum.getLeft? = l.filterMap Sum.getLeft? := by
  rcases h with ⟨l₁, l₂, b, a⟩
  simp [List.filterMap_append, List.filterMap_cons]

theorem Overtake.filterMap_getRight {l l' : List (α ⊕ β)} (h : Overtake l l') :
    l'.filterMap Sum.getRight? = l.filterMap Sum.getRight? := by
  rcases h with ⟨l₁, l₂, b, a⟩
  simp [List.filterMap_append, List.filterMap_cons]

/-- A reorder keeps the order of the urgent messages. -/
theorem Reorder.filterMap_getLeft {l l' : List (α ⊕ β)} (h : Reorder l l') :
    l'.filterMap Sum.getLeft? = l.filterMap Sum.getLeft? :=
  Reorder.invariant Overtake.filterMap_getLeft h

/-- A reorder keeps the order of the normal messages. -/
theorem Reorder.filterMap_getRight {l l' : List (α ⊕ β)} (h : Reorder l l') :
    l'.filterMap Sum.getRight? = l.filterMap Sum.getRight? :=
  Reorder.invariant Overtake.filterMap_getRight h

/-- Without urgent messages there is nothing to reorder. -/
theorem Reorder.eq_of_forall_isRight {l l' : List (α ⊕ β)} (h : Reorder l l')
    (hnormal : ∀ m ∈ l, m.isRight) : l' = l := by
  induction h with
  | refl => rfl
  | tail _ hstep ih =>
      rcases hstep with ⟨l₁, l₂, b, a⟩
      have hmem : Sum.inl a ∈ l := by
        rw [← ih]
        simp
      simpa using hnormal _ hmem

end Reorder

/-- What an actor has queued on its two channels. -/
structure Box (α β : Type*) where
  urgent : List α
  normal : List β

/-- The queued messages in the order `Reorder` reads them: urgent first. -/
def Box.pending (box : Box α β) : List (α ⊕ β) :=
  box.urgent.map .inl ++ box.normal.map .inr

/-- The owner's state and the calls it has still to make, and every actor's
    state and channels. -/
structure System (ι ρ γ σ α β : Type*) where
  owner : ρ
  calls : List γ
  states : ι → σ
  boxes : ι → Box α β

/-- No call left and nothing queued. -/
def System.Drained (s : System ι ρ γ σ α β) : Prop :=
  s.calls = [] ∧ ∀ i, s.boxes i = ⟨[], []⟩

/-- The program: how the owner routes a call, the bounds of the two channels,
    and what an actor does with each kind of message. -/
structure Actors (ι ρ γ σ α β : Type*) where
  route : ρ → γ → ρ × Option (ι × (α ⊕ β))
  urgentCap : Nat
  normalCap : Nat
  onUrgent : σ → α → σ
  onNormal : σ → β → σ

namespace Actors

variable (A : Actors ι ρ γ σ α β)

/-- The messages the owner sends for its calls, from owner state `o`. -/
def dispatch : ρ → List γ → List (ι × (α ⊕ β))
  | _, [] => []
  | o, c :: cs =>
      match A.route o c with
      | (o', none) => dispatch o' cs
      | (o', some m) => m :: dispatch o' cs

/-- An actor's state after serving `l`. -/
def serve (s : σ) (l : List (α ⊕ β)) : σ :=
  l.foldl (fun s m => Sum.elim (A.onUrgent s) (A.onNormal s) m) s

theorem dispatch_of_none {o o' : ρ} {c : γ} (h : A.route o c = (o', none)) (cs : List γ) :
    A.dispatch o (c :: cs) = A.dispatch o' cs := by
  simp only [dispatch, h]

theorem dispatch_of_some {o o' : ρ} {c : γ} {m : ι × (α ⊕ β)} (h : A.route o c = (o', some m))
    (cs : List γ) : A.dispatch o (c :: cs) = m :: A.dispatch o' cs := by
  simp only [dispatch, h]

theorem serve_append (s : σ) (l l' : List (α ⊕ β)) :
    A.serve s (l ++ l') = A.serve (A.serve s l) l' := by
  simp only [serve, List.foldl_append]

variable [DecidableEq ι]

/-- One send of the owner, or one pass of an actor's loop. -/
inductive Step : System ι ρ γ σ α β → System ι ρ γ σ α β → Prop
  | skip {s : System ι ρ γ σ α β} {c : γ} {cs : List γ} {o : ρ} :
      s.calls = c :: cs → A.route s.owner c = (o, none) →
      Step s ⟨o, cs, s.states, s.boxes⟩
  | sendUrgent {s : System ι ρ γ σ α β} {c : γ} {cs : List γ} {o : ρ} {i : ι} {a : α} :
      s.calls = c :: cs → A.route s.owner c = (o, some (i, .inl a)) →
      (s.boxes i).urgent.length < A.urgentCap →
      Step s ⟨o, cs, s.states, Function.update s.boxes i ⟨(s.boxes i).urgent ++ [a], (s.boxes i).normal⟩⟩
  | sendNormal {s : System ι ρ γ σ α β} {c : γ} {cs : List γ} {o : ρ} {i : ι} {b : β} :
      s.calls = c :: cs → A.route s.owner c = (o, some (i, .inr b)) →
      (s.boxes i).normal.length < A.normalCap →
      Step s ⟨o, cs, s.states, Function.update s.boxes i ⟨(s.boxes i).urgent, (s.boxes i).normal ++ [b]⟩⟩
  | serveUrgent {s : System ι ρ γ σ α β} {i : ι} {a : α} {r : List α} :
      (s.boxes i).urgent = a :: r →
      Step s ⟨s.owner, s.calls, Function.update s.states i (A.onUrgent (s.states i) a),
        Function.update s.boxes i ⟨r, (s.boxes i).normal⟩⟩
  | serveNormal {s : System ι ρ γ σ α β} {i : ι} {b : β} {r : List β} :
      (s.boxes i).urgent = [] → (s.boxes i).normal = b :: r →
      Step s ⟨s.owner, s.calls, Function.update s.states i (A.onNormal (s.states i) b),
        Function.update s.boxes i ⟨[], r⟩⟩

/-- The messages of `l` for actor `i`. -/
def sentTo (i : ι) (l : List (ι × (α ⊕ β))) : List (α ⊕ β) :=
  l.filterMap fun m => if m.1 = i then some m.2 else none

theorem mem_sentTo {i : ι} {m : α ⊕ β} {l : List (ι × (α ⊕ β))} : m ∈ sentTo i l ↔ (i, m) ∈ l := by
  simp only [sentTo, List.mem_filterMap, Option.ite_none_right_eq_some, Option.some.injEq]
  constructor
  · rintro ⟨⟨j, m'⟩, hmem, rfl, rfl⟩
    exact hmem
  · intro hmem
    exact ⟨(i, m), hmem, rfl, rfl⟩

theorem sentTo_cons (i : ι) (m : ι × (α ⊕ β)) (l : List (ι × (α ⊕ β))) :
    sentTo i (m :: l) = if m.1 = i then m.2 :: sentTo i l else sentTo i l := by
  by_cases hm : m.1 = i <;> simp [sentTo, hm]

/-- Every actor's state is its initial state after serving some order `L`,
    and `L`, then its queue, then what the owner will still send it, is a
    reorder of everything the owner sends it. -/
def Consistent (init s : System ι ρ γ σ α β) : Prop :=
  ∀ i, ∃ L, s.states i = A.serve (init.states i) L ∧
    Reorder (sentTo i (A.dispatch init.owner init.calls))
      (L ++ (s.boxes i).pending ++ sentTo i (A.dispatch s.owner s.calls))

variable {A}

theorem consistent_init {init : System ι ρ γ σ α β} (hempty : ∀ i, init.boxes i = ⟨[], []⟩) :
    A.Consistent init init := by
  intro i
  refine ⟨[], rfl, ?_⟩
  simpa [hempty i, Box.pending] using Reorder.refl _

/-- One step keeps the actors consistent with what the owner sends. -/
theorem Step.consistent {init s s' : System ι ρ γ σ α β} (hstep : A.Step s s')
    (h : A.Consistent init s) : A.Consistent init s' := by
  intro j
  rcases h j with ⟨L, hstate, hreorder⟩
  cases hstep with
  | skip hcalls hroute =>
      refine ⟨L, hstate, ?_⟩
      simpa only [hcalls, A.dispatch_of_none hroute] using hreorder
  | @sendUrgent c cs o i a hcalls hroute _ =>
      refine ⟨L, hstate, ?_⟩
      rw [hcalls, A.dispatch_of_some hroute, sentTo_cons] at hreorder
      by_cases hij : i = j
      · -- the message joins the urgent queue, ahead of the normal one
        subst hij
        simp only [if_true] at hreorder
        refine hreorder.trans ?_
        have hmove := Reorder.move_urgent (L ++ (s.boxes i).urgent.map .inl) (sentTo i (A.dispatch o cs))
          (s.boxes i).normal a
        simpa [Box.pending, List.append_assoc] using hmove
      · simpa [Function.update_of_ne (Ne.symm hij), hij] using hreorder
  | @sendNormal c cs o i b hcalls hroute _ =>
      refine ⟨L, hstate, ?_⟩
      rw [hcalls, A.dispatch_of_some hroute, sentTo_cons] at hreorder
      by_cases hij : i = j
      · subst hij
        simpa [Box.pending, List.append_assoc] using hreorder
      · simpa [Function.update_of_ne (Ne.symm hij), hij] using hreorder
  | @serveUrgent i a rest hurgent =>
      by_cases hij : i = j
      · -- the head of the urgent queue moves into the served order
        subst hij
        refine ⟨L ++ [.inl a], ?_, ?_⟩
        · simp [hstate, serve]
        · simpa [Box.pending, hurgent, List.append_assoc] using hreorder
      · refine ⟨L, ?_, ?_⟩
        · simpa [Function.update_of_ne (Ne.symm hij)] using hstate
        · simpa [Function.update_of_ne (Ne.symm hij)] using hreorder
  | @serveNormal i b rest hurgent hnormal =>
      by_cases hij : i = j
      · subst hij
        refine ⟨L ++ [.inr b], ?_, ?_⟩
        · simp [hstate, serve]
        · simpa [Box.pending, hurgent, hnormal, List.append_assoc] using hreorder
      · refine ⟨L, ?_, ?_⟩
        · simpa [Function.update_of_ne (Ne.symm hij)] using hstate
        · simpa [Function.update_of_ne (Ne.symm hij)] using hreorder

/-- In every interleaving, every actor is consistent with what the owner
    sends it. -/
theorem reachable_consistent {init s : System ι ρ γ σ α β}
    (hempty : ∀ i, init.boxes i = ⟨[], []⟩) (hrun : Relation.ReflTransGen A.Step init s) :
    A.Consistent init s := by
  induction hrun with
  | refl => exact consistent_init hempty
  | tail _ hstep ih => exact hstep.consistent ih

/-- Once drained, every actor has served all its messages, in an order of
    `Reorder`. -/
theorem drained_serves {init s : System ι ρ γ σ α β}
    (hempty : ∀ i, init.boxes i = ⟨[], []⟩) (hrun : Relation.ReflTransGen A.Step init s)
    (hdrained : s.Drained) (i : ι) :
    ∃ L, Reorder (sentTo i (A.dispatch init.owner init.calls)) L ∧
      s.states i = A.serve (init.states i) L := by
  rcases reachable_consistent hempty hrun i with ⟨L, hstate, hreorder⟩
  refine ⟨L, ?_, hstate⟩
  simpa [hdrained.1, hdrained.2 i, Box.pending, dispatch, sentTo] using hreorder

/-- From empty channels, the owner sends its next call and the actor it went
    to serves it at once, which empties the channels again. -/
theorem send_then_serve (hcap : 0 < A.urgentCap ∧ 0 < A.normalCap) {s : System ι ρ γ σ α β}
    {c : γ} {cs : List γ} (hcalls : s.calls = c :: cs) (hempty : ∀ i, s.boxes i = ⟨[], []⟩) :
    ∃ s₁, Relation.ReflTransGen A.Step s s₁ ∧ s₁.calls = cs ∧ ∀ i, s₁.boxes i = ⟨[], []⟩ := by
  rcases hroute : A.route s.owner c with ⟨o, _ | ⟨i, a | b⟩⟩
  · exact ⟨_, Relation.ReflTransGen.single (Step.skip hcalls hroute), rfl, hempty⟩
  · have hsend := Step.sendUrgent (A := A) hcalls hroute (by simpa [hempty i] using hcap.1)
    have hserve := Step.serveUrgent (A := A) (i := i) (a := a) (r := [])
      (s := ⟨o, cs, s.states, Function.update s.boxes i ⟨(s.boxes i).urgent ++ [a], (s.boxes i).normal⟩⟩)
      (by simp [hempty i])
    refine ⟨_, Relation.ReflTransGen.head hsend (Relation.ReflTransGen.single hserve), rfl, ?_⟩
    intro j
    by_cases hj : j = i
    · subst hj
      simp [hempty j]
    · simp [Function.update_of_ne hj, hempty j]
  · have hsend := Step.sendNormal (A := A) hcalls hroute (by simpa [hempty i] using hcap.2)
    have hserve := Step.serveNormal (A := A) (i := i) (b := b) (r := [])
      (s := ⟨o, cs, s.states, Function.update s.boxes i ⟨(s.boxes i).urgent, (s.boxes i).normal ++ [b]⟩⟩)
      (by simp [hempty i]) (by simp [hempty i])
    refine ⟨_, Relation.ReflTransGen.head hsend (Relation.ReflTransGen.single hserve), rfl, ?_⟩
    intro j
    by_cases hj : j = i
    · subst hj
      simp
    · simp [Function.update_of_ne hj, hempty j]

/-- With room for one message on each channel, every interleaving can be
    continued until it drains. -/
theorem reaches_drained (hcap : 0 < A.urgentCap ∧ 0 < A.normalCap) :
    ∀ (calls : List γ) (s : System ι ρ γ σ α β), s.calls = calls → (∀ i, s.boxes i = ⟨[], []⟩) →
    ∃ s', Relation.ReflTransGen A.Step s s' ∧ s'.Drained
  | [], s, hcalls, hempty => ⟨s, Relation.ReflTransGen.refl, hcalls, hempty⟩
  | c :: cs, s, hcalls, hempty => by
      rcases send_then_serve hcap hcalls hempty with ⟨s₁, hrun₁, hcalls₁, hempty₁⟩
      rcases reaches_drained hcap cs s₁ hcalls₁ hempty₁ with ⟨s', hrun, hdrained⟩
      exact ⟨s', hrun₁.trans hrun, hdrained⟩

end Actors

end Mailbox
