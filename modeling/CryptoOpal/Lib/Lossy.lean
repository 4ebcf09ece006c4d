import CryptoOpal.Lib.Duplex

/-!
# Two Parties and an Unreliable Network

Two parties of one kind send messages to one another, and the network may do with
them what it likes, except change them: a message may be delivered late, twice, or
not at all. Whatever a party ever sent is kept, and a step delivers any of it.

As with reliable channels both parties run the same program, and an invariant
needs to be kept by the moves of one side alone.

## Main definitions

* `Network`: Both parties, and everything they ever sent.
* `Network.step`: One step of one side.

## Theorems

* `Network.final_facing`: An invariant of every state of a run, by the moves of the
  left.
* `Network.along_facing`: What the invariant promises of every step.
-/

namespace CryptoOpal

namespace Lib

/-- A call, or the delivery of the message with a number. -/
inductive Event (α β : Type) where
  | call (a : α)
  | deliver (n : Nat) (b : β)
  deriving DecidableEq

/-- Two parties, and what each of them sent, oldest first. -/
structure Network (σ μ : Type) where
  left : σ
  right : σ
  fromLeft : List μ
  fromRight : List μ
  deriving DecidableEq

namespace Network

variable {σ α β μ : Type}

def swap (s : Network σ μ) : Network σ μ where
  left := s.right
  right := s.left
  fromLeft := s.fromRight
  fromRight := s.fromLeft

/-- The network with a side on the left. -/
def facing : Side → Network σ μ → Network σ μ
  | .left, s => s
  | .right, s => s.swap

/-- The left party moves. A delivery of what was not sent does nothing. -/
def moveLeft (p : Party σ α β μ) (s : Network σ μ) : Event α β → Network σ μ
  | .call a =>
    { s with left := (p.call s.left a).1, fromLeft := s.fromLeft ++ (p.call s.left a).2 }
  | .deliver n b =>
    match s.fromRight[n]? with
    | none => s
    | some m =>
      { s with
        left := (p.receive s.left b m).1
        fromLeft := s.fromLeft ++ (p.receive s.left b m).2 }

/-- One step of a side. -/
def step (p : Party σ α β μ) (s : Network σ μ) (i : Side × Event α β) : Network σ μ × Unit :=
  (((s.facing i.1).moveLeft p i.2).facing i.1, ())

/-- What a condition on the moves of the left asks of a step. -/
def Facing (P : Network σ μ → Event α β → Prop) (s : Network σ μ) (i : Side × Event α β) : Prop :=
  P (s.facing i.1) i.2

instance (P : Network σ μ → Event α β → Prop) [∀ s e, Decidable (P s e)] (s : Network σ μ)
    (i : Side × Event α β) : Decidable (Facing P s i) :=
  inferInstanceAs (Decidable (P _ _))

variable {p : Party σ α β μ} {s : Network σ μ}

/-- An invariant that does not tell the sides apart holds at the end of a run when
calls and deliveries on the left keep it. -/
theorem final_facing {P : Network σ μ → Event α β → Prop} {Inv : Network σ μ → Prop}
    (hswap : ∀ s, Inv s → Inv s.swap)
    (hcall : ∀ s a, Inv s → P s (.call a) → Inv (s.moveLeft p (.call a)))
    (hdeliver : ∀ s n b m, Inv s → P s (.deliver n b) → s.fromRight[n]? = some m →
      Inv { s with
        left := (p.receive s.left b m).1
        fromLeft := s.fromLeft ++ (p.receive s.left b m).2 })
    {moves : List (Side × Event α β)} (hinit : Inv s) (h : Along (step p) (Facing P) s moves) :
    Inv (final (step p) s moves) := by
  have hmove : ∀ s e, Inv s → P s e → Inv (s.moveLeft p e) := by
    intro s e hs hP
    cases e with
    | call a => exact hcall s a hs hP
    | deliver n b =>
        rw [moveLeft]
        cases hm : s.fromRight[n]? with
        | none => exact hs
        | some m => exact hdeliver s n b m hs hP hm
  have hturn : ∀ (side : Side) (s : Network σ μ), Inv s → Inv (s.facing side) := by
    intro side s hs
    cases side with
    | left => exact hs
    | right => exact hswap s hs
  have hstep : ∀ s i, Inv s → Facing P s i → Inv (step p s i).1 := by
    intro s i hs hP
    exact hturn i.1 _ (hmove _ i.2 (hturn i.1 s hs) hP)
  exact final_invariant Inv hstep s moves hinit h

/-- What a state with an invariant promises of each move of the left holds of every step of a
run. -/
theorem along_facing {P Q : Network σ μ → Event α β → Prop} {Inv : Network σ μ → Prop}
    (hswap : ∀ s, Inv s → Inv s.swap)
    (hcall : ∀ (s : Network σ μ) a, Inv s → Inv (s.moveLeft p (.call a)))
    (hdeliver : ∀ (s : Network σ μ) (n : Nat) (b : β) (m : μ), Inv s → s.fromRight[n]? = some m →
      Inv { s with
        left := (p.receive s.left b m).1
        fromLeft := s.fromLeft ++ (p.receive s.left b m).2 })
    (hQ : ∀ s e, Inv s → P s e → Q s e) {moves : List (Side × Event α β)} (hinit : Inv s)
    (h : Along (step p) (Facing P) s moves) : Along (step p) (Facing Q) s moves := by
  have hturn : ∀ (side : Side) (s : Network σ μ), Inv s → Inv (s.facing side) := by
    intro side s hs
    cases side with
    | left => exact hs
    | right => exact hswap s hs
  induction moves generalizing s with
  | nil => exact fun x hx => absurd hx List.not_mem_nil
  | cons i moves ih =>
      rw [along_cons] at h ⊢
      have hnext : Inv (step p s i).1 := by
        refine hturn i.1 _ ?_
        have hs := hturn i.1 s hinit
        cases hi : i.2 with
        | call a => exact hcall _ a hs
        | deliver n b =>
            rw [moveLeft]
            cases hm : (s.facing i.1).fromRight[n]? with
            | none => exact hs
            | some m => exact hdeliver _ n b m hs hm
      exact ⟨hQ _ _ (hturn i.1 s hinit) h.1, ih hnext h.2⟩

end Network

end Lib

end CryptoOpal
