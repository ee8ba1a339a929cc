/-!
# Room

A tree is read, evaluated and written from the inside, and what is around a part of it waits until
that is done. Waiting takes room, which is counted in cells. Room may be without limit.

How many cells a form takes is told where it is read, evaluated and written. What is done in between
and is over at once, such as the look at a name, is not counted, so that a run may have a few cells
less than are told here.
-/

namespace PrefixLogic

/-- The cells that are left, or none if there is no limit to them. -/
abbrev Room := Option Nat

/-- The cells of room that a run has by default. -/
def roomCells : Nat := 985

namespace Room

/-- Whether there is no cell left. -/
def isUsedUp (room : Room) : Bool := room = some 0

/-- Whether so many cells are left. -/
def holds (room : Room) (cells : Nat) : Bool := room.all (cells ≤ ·)

/-- What is left when so many cells are taken. -/
def less (room : Room) (cells : Nat) : Room := room.map (· - cells)

/-- What is left when so many cells are given back. -/
def more (room : Room) (cells : Nat) : Room := room.map (· + cells)

/-- How many expressions may be read inside one another. Each of them takes two cells while it waits
for the next one, and the innermost takes five more. -/
def readings (room : Room) : Option Nat := room.map fun cells => (cells - 5) / 2

theorem isUsedUp_eq (room : Room) : room.isUsedUp = !room.holds 1 := by
  rcases room with - | - | cells <;> simp [isUsedUp, holds]

/-- All that a room holds, another one holds too. -/
def IsWithin (room room' : Room) : Prop :=
  ∀ cells, room.holds cells = true → room'.holds cells = true

theorem isWithin_self (room : Room) : room.IsWithin room := fun _ => id

theorem isWithin_none (room : Room) : room.IsWithin none := fun _ _ => rfl

/-- A room without limit is in no other one. -/
theorem IsWithin.cases {room room' : Room} (h : room.IsWithin room') :
    room' = none ∨ ∃ left most, room = some left ∧ room' = some most ∧ left ≤ most := by
  rcases room' with - | most
  · exact .inl rfl
  · rcases room with - | left
    · exact absurd (h (most + 1) rfl) (by simp [holds])
    · exact .inr ⟨left, most, rfl, rfl, of_decide_eq_true (h left (by simp [holds]))⟩

theorem IsWithin.less {room room' : Room} (h : room.IsWithin room') (taken : Nat) :
    (room.less taken).IsWithin (room'.less taken) := by
  intro cells hcells
  rcases h.cases with rfl | ⟨left, most, rfl, rfl, hle⟩
  · rfl
  · simp only [holds, Room.less, Option.all_some, Option.map_some, decide_eq_true_eq] at hcells ⊢
    omega

theorem less_isWithin (room : Room) (taken : Nat) : (room.less taken).IsWithin room := by
  intro cells hcells
  rcases room with - | left
  · rfl
  · simp only [holds, less, Option.all_some, Option.map_some, decide_eq_true_eq] at hcells ⊢
    omega

theorem isWithin_more (room : Room) (given : Nat) : room.IsWithin (room.more given) := by
  intro cells hcells
  rcases room with - | left
  · rfl
  · simp only [holds, more, Option.all_some, Option.map_some, decide_eq_true_eq] at hcells ⊢
    omega

/-! ## Room without limit -/

@[simp] theorem holds_none (cells : Nat) : holds none cells = true := rfl

@[simp] theorem more_none (cells : Nat) : more none cells = none := rfl

@[simp] theorem readings_none : readings none = none := rfl

end Room

end PrefixLogic
