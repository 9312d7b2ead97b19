/-! A source of pseudo-random words, and draws from it. Every draw gives the source to go on
with. -/
namespace OrderFlow

structure Random where
  state : UInt64

namespace Random

def ofSeed (seed : Nat) : Random := ⟨seed.toUInt64⟩

/-- The state moves on by a fixed odd step; the word is the state with its bits mixed. -/
def next (r : Random) : UInt64 × Random :=
  let s := r.state + 0x9E3779B97F4A7C15
  let z := (s ^^^ (s >>> 30)) * 0xBF58476D1CE4E5B9
  let z := (z ^^^ (z >>> 27)) * 0x94D049BB133111EB
  (z ^^^ (z >>> 31), ⟨s⟩)

/-- A number below `n`; zero if there is none. -/
def below (n : Nat) (r : Random) : Nat × Random :=
  let (w, r) := r.next
  (w.toNat % n, r)

/-- A number from zero to one, one not reached. -/
def fraction (r : Random) : Float × Random :=
  let (w, r) := r.next
  ((w >>> 11).toFloat / 9007199254740992.0, r)

/-- A number between `-bound` and `bound`. -/
def within (bound : Float) (r : Random) : Float × Random :=
  let (x, r) := r.fraction
  ((2.0 * x - 1.0) * bound, r)

/-- Some draws, one after the other. -/
def many {α : Type} (draw : Random → α × Random) : Nat → Random → List α × Random
  | 0, r => ([], r)
  | n + 1, r =>
    let (a, r) := draw r
    let (rest, r) := many draw n r
    (a :: rest, r)

/-- The elements in the order of keys drawn for them. -/
def shuffled {α : Type} (xs : List α) (r : Random) : List α × Random :=
  let (keys, r) := many next xs.length r
  (((keys.zip xs).mergeSort fun a b => a.1 ≤ b.1).map (·.2), r)

theorem length_many {α : Type} (draw : Random → α × Random) (n : Nat) (r : Random) :
    (many draw n r).1.length = n := by
  induction n generalizing r with
  | zero => rfl
  | succ n ih => simp [many, ih]

/-- What holds of every draw holds of all that are drawn. -/
theorem forall_mem_many {α : Type} {P : α → Prop} {draw : Random → α × Random}
    (h : ∀ r, P (draw r).1) (n : Nat) (r : Random) : ∀ a ∈ (many draw n r).1, P a := by
  induction n generalizing r with
  | zero => simp [many]
  | succ n ih =>
    intro a ha
    rcases List.mem_cons.mp ha with rfl | ha
    · exact h r
    · exact ih _ a ha

/-- Shuffling loses no element and adds none. -/
theorem shuffled_perm {α : Type} (xs : List α) (r : Random) : (shuffled xs r).1.Perm xs := by
  have hkeys := length_many next xs.length r
  have hzip : (((many next xs.length r).1.zip xs).map (·.2)) = xs :=
    List.map_snd_zip (Nat.le_of_eq hkeys.symm)
  exact ((List.mergeSort_perm ..).map _).trans (.of_eq hzip)

end Random
end OrderFlow
