import Mathlib.Algebra.Order.Group.Unbundled.Int
import Mathlib.Algebra.Order.Ring.Int
import Mathlib.Data.List.Range
import OrderFlow.Market.Timeframe

/-! Periods of a timeframe. The start of a period is the unique multiple of the period's length
from which a time is less than one length away; periods of a longer interval are made of whole
periods of a shorter one. -/
namespace OrderFlow.Timeframe
variable {tf fine coarse : Timeframe} {s t u : Int}

theorem dvd_periodStart (tf : Timeframe) (t : Int) : tf.millis ∣ tf.periodStart t :=
  Int.dvd_mul_left ..

theorem periodStart_le (tf : Timeframe) (t : Int) : tf.periodStart t ≤ t :=
  Int.ediv_mul_le t tf.millis_pos.ne'

theorem lt_periodStart_add (tf : Timeframe) (t : Int) : t < tf.periodStart t + tf.millis := by
  have h := Int.lt_ediv_add_one_mul_self t tf.millis_pos
  rwa [Int.add_mul, Int.one_mul] at h

/-- Multiples of a length that are less than the length apart are equal. -/
lemma eq_of_dvd_of_lt {m : Int} (hs : m ∣ s) (ht : m ∣ t) (hst : s < t + m) (hts : t < s + m) :
    s = t := by
  have hd : s - t = 0 := by
    apply Int.eq_zero_of_abs_lt_dvd (Int.dvd_sub hs ht)
    rw [abs_lt]
    omega
  omega

theorem periodStart_eq_iff :
    tf.periodStart t = s ↔ tf.millis ∣ s ∧ s ≤ t ∧ t < s + tf.millis := by
  constructor
  · rintro rfl
    exact ⟨tf.dvd_periodStart t,tf.periodStart_le t,tf.lt_periodStart_add t⟩
  · rintro ⟨hd,hle,hlt⟩
    have h1 := tf.periodStart_le t
    have h2 := tf.lt_periodStart_add t
    exact eq_of_dvd_of_lt (tf.dvd_periodStart t) hd (by omega) (by omega)

theorem periodStart_of_dvd (h : tf.millis ∣ t) : tf.periodStart t = t :=
  periodStart_eq_iff.mpr ⟨h,le_refl t,by have := tf.millis_pos; omega⟩

theorem periodStart_mono (tf : Timeframe) (h : t ≤ u) : tf.periodStart t ≤ tf.periodStart u :=
  Int.mul_le_mul_of_nonneg_right (Int.ediv_le_ediv tf.millis_pos h) tf.millis_pos.le

/-- An aligned time is at most the start of a period exactly if it is at most a time in it. -/
theorem le_periodStart_iff (h : tf.millis ∣ s) : s ≤ tf.periodStart t ↔ s ≤ t := by
  constructor
  · intro hs
    exact hs.trans (tf.periodStart_le t)
  · intro hs
    rw [← periodStart_of_dvd h]
    exact tf.periodStart_mono hs

theorem periodStart_lt_iff (h : tf.millis ∣ s) : tf.periodStart t < s ↔ t < s := by
  have := le_periodStart_iff (t := t) h
  omega

/-- Aligned times of which one comes first are at least a period apart. -/
theorem add_millis_le (hs : tf.millis ∣ s) (ht : tf.millis ∣ t) (h : s < t) :
    s + tf.millis ≤ t := by
  by_contra hn
  have := tf.millis_pos
  exact h.ne (eq_of_dvd_of_lt hs ht (by omega) (by omega))

/-- Going to the start of the shorter period first makes no difference to the longer one. -/
theorem periodStart_periodStart (h : fine.millis ∣ coarse.millis) (t : Int) :
    coarse.periodStart (fine.periodStart t) = coarse.periodStart t := by
  have hd : fine.millis ∣ coarse.periodStart t := h.trans (coarse.dvd_periodStart t)
  apply periodStart_eq_iff.mpr
  refine ⟨coarse.dvd_periodStart t,?_,?_⟩
  · exact (le_periodStart_iff hd).mpr (coarse.periodStart_le t)
  · exact (fine.periodStart_le t).trans_lt (coarse.lt_periodStart_add t)

/-- A shorter period lies inside a longer one exactly if it starts in it. -/
theorem inside_iff (h : fine.millis ∣ coarse.millis) (hs : fine.millis ∣ s)
    (hu : coarse.millis ∣ u) :
    u ≤ s ∧ s + fine.millis ≤ u + coarse.millis ↔ coarse.periodStart s = u := by
  have hpos := fine.millis_pos
  rw [periodStart_eq_iff]
  constructor
  · rintro ⟨hle,hend⟩
    exact ⟨hu,hle,by omega⟩
  · rintro ⟨-,hle,hlt⟩
    exact ⟨hle,add_millis_le hs (Int.dvd_add (h.trans hu) h) hlt⟩

/-- The starts of `n` periods one after the other. -/
def starts (tf : Timeframe) (first : Int) (n : Nat) : List Int :=
  (List.range n).map fun (i : Nat) => first + i * tf.millis

theorem starts_succ (first : Int) (n : Nat) :
    tf.starts first (n+1) = first :: tf.starts (first + tf.millis) n := by
  simp only [starts, List.range_succ_eq_map, List.map_cons, List.map_map]
  congr 1
  · simp
  · apply List.map_congr_left
    intro i _
    simp only [Function.comp_apply, Nat.succ_eq_add_one, Nat.cast_add, Nat.cast_one]
    rw [Int.add_mul]
    omega

@[simp] theorem length_starts (first : Int) (n : Nat) : (tf.starts first n).length = n := by
  simp [starts]

theorem starts_take (first : Int) {m n : Nat} (h : m ≤ n) :
    (tf.starts first n).take m = tf.starts first m := by
  simp [starts, ← List.map_take, List.take_range, Nat.min_eq_left h]

theorem le_of_mem_starts {first : Int} {n : Nat} (h : s ∈ tf.starts first n) : first ≤ s := by
  obtain ⟨i,-,rfl⟩ := List.mem_map.mp h
  have := Int.mul_nonneg (Int.natCast_nonneg i) tf.millis_pos.le
  omega

theorem starts_pairwise (tf : Timeframe) (first : Int) (n : Nat) :
    (tf.starts first n).Pairwise (· < ·) := by
  rw [starts, List.pairwise_map]
  apply List.pairwise_lt_range.imp
  intro i j hij
  have := Int.mul_lt_mul_of_pos_right (Int.ofNat_lt.mpr hij) tf.millis_pos
  omega

/-- Aligned times are a whole number of periods apart, and both ends are counted. -/
theorem periodsBetween_eq {first last : Int} (hf : tf.millis ∣ first) (hl : tf.millis ∣ last)
    (h : first ≤ last) :
    ∃ n : Nat, last = first + n * tf.millis ∧ tf.periodsBetween first last = n+1 := by
  have hm := tf.millis_pos
  obtain ⟨k,hk⟩ := Int.dvd_sub hl hf
  have hk0 : 0 ≤ k := by
    by_contra hn
    have := Int.mul_neg_of_pos_of_neg hm (by omega : k < 0)
    omega
  refine ⟨k.toNat,?_,?_⟩
  · rw [Int.toNat_of_nonneg hk0, Int.mul_comm]
    omega
  · rw [periodsBetween, if_neg (by omega), hk, Int.mul_ediv_cancel_left k hm.ne']

theorem periodsBetween_mono (tf : Timeframe) {first last last' : Int} (h : last ≤ last') :
    tf.periodsBetween first last ≤ tf.periodsBetween first last' := by
  have := Int.ediv_le_ediv tf.millis_pos (by omega : last - first ≤ last' - first)
  simp only [periodsBetween]
  split_ifs <;> omega

/-- Between two aligned times lie exactly the aligned times. -/
theorem mem_starts_periodsBetween {first last : Int} (hf : tf.millis ∣ first)
    (hl : tf.millis ∣ last) :
    s ∈ tf.starts first (tf.periodsBetween first last) ↔ tf.millis ∣ s ∧ first ≤ s ∧ s ≤ last := by
  have hm := tf.millis_pos
  simp only [starts, List.mem_map, List.mem_range, periodsBetween]
  split_ifs with hlt
  · constructor
    · rintro ⟨i,hi,-⟩
      omega
    · omega
  · obtain ⟨k,hk⟩ := Int.dvd_sub hl hf
    have hk0 : 0 ≤ k := by
      by_contra hn
      have := Int.mul_neg_of_pos_of_neg hm (by omega : k < 0)
      omega
    rw [hk, Int.mul_ediv_cancel_left k hm.ne']
    constructor
    · rintro ⟨i,hi,rfl⟩
      refine ⟨Int.dvd_add hf (Int.dvd_mul_left ..),?_,?_⟩
      · have := Int.mul_nonneg (Int.natCast_nonneg i) hm.le
        omega
      · have : (i : Int) * tf.millis ≤ k * tf.millis :=
          Int.mul_le_mul_of_nonneg_right (by omega) hm.le
        rw [Int.mul_comm k] at this
        omega
    · rintro ⟨hs,hfs,hsl⟩
      obtain ⟨j,hj⟩ := Int.dvd_sub hs hf
      have hj0 : 0 ≤ j := by
        by_contra hn
        have := Int.mul_neg_of_pos_of_neg hm (by omega : j < 0)
        omega
      have hjk : j ≤ k := by
        apply Int.le_of_mul_le_mul_left _ hm
        omega
      refine ⟨j.toNat,by omega,?_⟩
      rw [Int.toNat_of_nonneg hj0, Int.mul_comm]
      omega

end OrderFlow.Timeframe
