import CryptoOpal.Lib.Transducer

/-!
# Two Parties and Two Channels

Two parties of one kind are joined by two reliable channels that keep the
order. A step is a call that one of them makes, or the delivery of the first
message on its way to one of them, and the steps come in any order. What a
party takes in beside a message, a random number or the verdict of some other
code, comes with the step that needs it.

The parties run the same program, so a fact about one side is a fact about the
other: `facing` turns a link such that the side that moves is on the left, and
`final_facing` needs an invariant to be kept by the moves of that side alone.

## Main definitions

* `Party`: What a party does when it is called, and on a message.
* `Link`: Both parties and what is in flight.
* `Link.step`: One step of one side.

## Theorems

* `facing_facing`: Turning a link twice changes nothing.
* `final_facing`: An invariant of every state of a run, by the moves of the left.
-/

namespace CryptoOpal

namespace Lib

/-- The program that both parties run: calls `α`, messages `μ`, and what `β`
comes beside a message. -/
structure Party (σ α β μ : Type) where
  call : σ → α → σ × List μ
  receive : σ → β → μ → σ × List μ

inductive Side where
  | left
  | right
  deriving DecidableEq

inductive Move (α β : Type) where
  | call (a : α)
  | deliver (b : β)
  deriving DecidableEq

/-- Two parties, and the messages in flight, oldest first. -/
structure Link (σ μ : Type) where
  left : σ
  right : σ
  toLeft : List μ
  toRight : List μ
  deriving DecidableEq

namespace Link

variable {σ α β μ : Type}

def swap (s : Link σ μ) : Link σ μ where
  left := s.right
  right := s.left
  toLeft := s.toRight
  toRight := s.toLeft

/-- The link with a side on the left. -/
def facing : Side → Link σ μ → Link σ μ
  | .left, s => s
  | .right, s => s.swap

@[simp] theorem swap_swap (s : Link σ μ) : s.swap.swap = s := rfl

@[simp] theorem facing_left (s : Link σ μ) : s.facing .left = s := rfl

@[simp] theorem facing_right (s : Link σ μ) : s.facing .right = s.swap := rfl

@[simp] theorem facing_facing (side : Side) (s : Link σ μ) : (s.facing side).facing side = s := by
  cases side <;> rfl

/-- The left party moves. A delivery with nothing in flight does nothing. -/
def moveLeft (p : Party σ α β μ) (s : Link σ μ) : Move α β → Link σ μ
  | .call a =>
    { s with left := (p.call s.left a).1, toRight := s.toRight ++ (p.call s.left a).2 }
  | .deliver b =>
    match s.toLeft with
    | [] => s
    | m :: rest =>
      { s with
        left := (p.receive s.left b m).1
        toLeft := rest
        toRight := s.toRight ++ (p.receive s.left b m).2 }

/-- One step of a side. -/
def step (p : Party σ α β μ) (s : Link σ μ) (i : Side × Move α β) : Link σ μ × Unit :=
  (((s.facing i.1).moveLeft p i.2).facing i.1, ())

/-- What a condition on the moves of the left asks of a step. -/
def Facing (P : Link σ μ → Move α β → Prop) (s : Link σ μ) (i : Side × Move α β) : Prop :=
  P (s.facing i.1) i.2

instance (P : Link σ μ → Move α β → Prop) [∀ s m, Decidable (P s m)] (s : Link σ μ)
    (i : Side × Move α β) : Decidable (Facing P s i) :=
  inferInstanceAs (Decidable (P _ _))

variable {p : Party σ α β μ} {s : Link σ μ}

@[simp] theorem step_left (m : Move α β) : (s.step p (.left, m)).1 = s.moveLeft p m := rfl

@[simp] theorem step_right (m : Move α β) :
    (s.step p (.right, m)).1 = (s.swap.moveLeft p m).swap := rfl

/-- A call goes to the end of what is in flight. -/
theorem moveLeft_call (a : α) :
    s.moveLeft p (.call a) =
      { s with left := (p.call s.left a).1, toRight := s.toRight ++ (p.call s.left a).2 } := rfl

theorem moveLeft_nil (h : s.toLeft = []) (b : β) : s.moveLeft p (.deliver b) = s := by
  simp only [moveLeft, h]

theorem moveLeft_cons {m : μ} {rest : List μ} (h : s.toLeft = m :: rest) (b : β) :
    s.moveLeft p (.deliver b) =
      { s with
        left := (p.receive s.left b m).1
        toLeft := rest
        toRight := s.toRight ++ (p.receive s.left b m).2 } := by
  simp only [moveLeft, h]

/-- An invariant that does not tell the sides apart holds at the end of a run
when the moves of the left keep it. -/
theorem final_facing {P : Link σ μ → Move α β → Prop} {Inv : Link σ μ → Prop}
    (hswap : ∀ s, Inv s → Inv s.swap)
    (hmove : ∀ s m, Inv s → P s m → Inv (s.moveLeft p m))
    {moves : List (Side × Move α β)} (hinit : Inv s) (h : Along (step p) (Facing P) s moves) :
    Inv (final (step p) s moves) := by
  have hturn : ∀ (side : Side) (s : Link σ μ), Inv s → Inv (s.facing side) := by
    intro side s hs
    cases side with
    | left => exact hs
    | right => exact hswap s hs
  have hstep : ∀ s i, Inv s → Facing P s i → Inv (step p s i).1 := by
    intro s i hs hP
    exact hturn i.1 _ (hmove _ i.2 (hturn i.1 s hs) hP)
  exact final_invariant Inv hstep s moves hinit h

end Link

end Lib

end CryptoOpal
