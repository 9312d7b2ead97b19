import Mathlib.Data.Set.Card
import OrderFlow.Proofs.Market.Alignment

/-! Starts of periods among the words. A start is told by the time it belongs to alone, and the
periods between two starts are as many as there are aligned times, as long as the time from one to
the other is a word, too. -/
namespace OrderFlow.Timeframe
variable {tf fine coarse : Timeframe} {first last s t u v : Int}

/-- The start of the period that holds a time: the aligned time that is less than a period before
it. -/
structure IsStart (tf : Timeframe) (t s : Int) : Prop where
  aligned : tf.millis ∣ s
  le : s ≤ t
  lt : t < s + tf.millis

theorem isStart_iff : tf.IsStart t s ↔ s = tf.periodStart t := by
  rw [eq_comm, periodStart_eq_iff]
  constructor
  · intro h
    exact ⟨h.aligned,h.le,h.lt⟩
  · rintro ⟨haligned,hle,hlt⟩
    exact ⟨haligned,hle,hlt⟩

theorem periodStart?_eq_some_iff : tf.periodStart? t = some s ↔ isSigned s ∧ tf.IsStart t s := by
  rw [periodStart?, signed?_eq_some, isStart_iff]
  constructor
  · rintro ⟨hword,rfl⟩
    exact ⟨hword,rfl⟩
  · rintro ⟨hword,rfl⟩
    exact ⟨hword,rfl⟩

/-- A start is the start of its own period. -/
lemma IsStart.self (h : tf.IsStart t s) : tf.IsStart s s :=
  ⟨h.aligned,le_refl s,by have := tf.millis_pos; omega⟩

lemma IsStart.mono (hs : tf.IsStart t s) (hv : tf.IsStart u v) (h : t ≤ u) : s ≤ v := by
  rw [isStart_iff.mp hs, isStart_iff.mp hv]
  exact tf.periodStart_mono h

/-- Going to the start of the shorter period first makes no difference, not even to whether there is
a start of the longer one. -/
theorem periodStart?_bind (h : fine.millis ∣ coarse.millis) (ht : isSigned t) :
    (fine.periodStart? t).bind coarse.periodStart? = coarse.periodStart? t := by
  by_cases hword : isSigned (fine.periodStart t)
  · have hfine : fine.periodStart? t = some (fine.periodStart t) := if_pos hword
    rw [hfine, Option.bind_some, periodStart?, periodStart_periodStart h, periodStart?]
  · -- the longer period starts no later, so before the first word as well
    have hle : coarse.periodStart t ≤ fine.periodStart t :=
      (le_periodStart_iff (h.trans (coarse.dvd_periodStart t))).mpr (coarse.periodStart_le t)
    have hfine := fine.periodStart_le t
    have hcoarse : ¬ isSigned (coarse.periodStart t) := by
      rw [isSigned_iff] at *
      omega
    rw [periodStart?, periodStart?, signed?, signed?, if_neg hword, if_neg hcoarse,
      Option.bind_none]

/-- The aligned times from one time to another. -/
def aligned (tf : Timeframe) (first last : Int) : Set Int :=
  {s | tf.millis ∣ s ∧ first ≤ s ∧ s ≤ last}

lemma mem_aligned : s ∈ tf.aligned first last ↔ tf.millis ∣ s ∧ first ≤ s ∧ s ≤ last := Iff.rfl

section
variable (hf : tf.millis ∣ first) (hl : tf.millis ∣ last)
include hf hl

lemma coe_toFinset_starts :
    (tf.starts first (tf.periodsBetween first last)).toFinset = tf.aligned first last := by
  ext s
  rw [Finset.mem_coe, List.mem_toFinset, mem_starts_periodsBetween hf hl, mem_aligned]

theorem ncard_aligned : (tf.aligned first last).ncard = tf.periodsBetween first last := by
  have hnodup : (tf.starts first (tf.periodsBetween first last)).Nodup :=
    (tf.starts_pairwise first _).imp fun h => h.ne
  rw [← coe_toFinset_starts hf hl, Set.ncard_coe_finset, List.toFinset_card_of_nodup hnodup,
    length_starts]

/-- An aligned time has one position among those from the first on. -/
theorem mem_aligned_iff_existsUnique : s ∈ tf.aligned first last ↔
    ∃! j : ℕ, j < (tf.aligned first last).ncard ∧ s = first + j * tf.millis := by
  have hmem : s ∈ tf.aligned first last ↔
      ∃ j : ℕ, j < (tf.aligned first last).ncard ∧ s = first + j * tf.millis := by
    rw [ncard_aligned hf hl, mem_aligned, ← mem_starts_periodsBetween hf hl]
    simp only [starts, List.mem_map, List.mem_range, eq_comm]
  rw [hmem]
  constructor
  · rintro ⟨j,hj,rfl⟩
    refine ⟨j,⟨hj,rfl⟩,?_⟩
    rintro i ⟨-,hi⟩
    have := Int.eq_of_mul_eq_mul_right tf.millis_pos.ne' (by omega : j * tf.millis = i * tf.millis)
    omega
  · exact ExistsUnique.exists

theorem periodsBetween?_eq (h : first ≤ last) : tf.periodsBetween? first last =
    if isSigned (last - first) then some (tf.aligned first last).ncard else none := by
  rw [periodsBetween?, ncard_aligned hf hl, decide_eq_false (not_lt.mpr h), Bool.false_or]

end

/-- Where the start of a period is a word, it is the one aligned time that can be the start; starts
stay where they are and keep the order of the times, and the start of a longer period is that of the
shorter one's start. Aligned times no further apart than a word are counted with both ends, and each
of those between them has one position. -/
theorem starts_alignment (tf : Timeframe) :
    (∀ t, isSigned (t / tf.millis * tf.millis) →
      ∃ s, tf.periodStart? t = some s ∧ ∀ s', tf.IsStart t s' ↔ s' = s) ∧
    (∀ t s, tf.periodStart? t = some s → tf.periodStart? s = some s) ∧
    (∀ t u s v, tf.periodStart? t = some s → tf.periodStart? u = some v → t ≤ u → s ≤ v) ∧
    (∀ coarse : Timeframe, tf.millis ∣ coarse.millis → ∀ t, isSigned t →
      (tf.periodStart? t).bind coarse.periodStart? = coarse.periodStart? t) ∧
    ∀ first last, tf.millis ∣ first → tf.millis ∣ last → first ≤ last → isSigned (last - first) →
      tf.periodsBetween? first last = some (tf.aligned first last).ncard ∧
      ∀ s, s ∈ tf.aligned first last ↔
        ∃! j : ℕ, j < (tf.aligned first last).ncard ∧ s = first + j * tf.millis := by
  refine ⟨?_,?_,?_,fun coarse h t ht => periodStart?_bind h ht,?_⟩
  · intro t hword
    exact ⟨_,if_pos hword,fun s' => isStart_iff⟩
  · intro t s hs
    obtain ⟨hword,hstart⟩ := periodStart?_eq_some_iff.mp hs
    exact periodStart?_eq_some_iff.mpr ⟨hword,hstart.self⟩
  · intro t u s v hs hv h
    exact (periodStart?_eq_some_iff.mp hs).2.mono (periodStart?_eq_some_iff.mp hv).2 h
  · intro first last hf hl h hspan
    refine ⟨?_,fun s => mem_aligned_iff_existsUnique hf hl⟩
    rw [periodsBetween?_eq hf hl h, if_pos hspan]

/-- Times on both sides of the epoch, in minutes and hours. -/
theorem starts_alignment_epoch :
    isSigned (-1 / oneMinute.millis * oneMinute.millis) ∧
    (∃ s, oneMinute.periodStart? (-1) = some s ∧ ∀ s', oneMinute.IsStart (-1) s' ↔ s' = s) ∧
    oneMinute.periodStart? (-1) = some (-60000) ∧
    oneMinute.periodStart? (-60000) = some (-60000) ∧
    oneMinute.periodStart? 1 = some 0 ∧ (-60000 : Int) ≤ 0 ∧
    oneMinute.millis ∣ oneHour.millis ∧
    (oneMinute.periodStart? (-1)).bind oneHour.periodStart? = oneHour.periodStart? (-1) ∧
    oneMinute.millis ∣ -120000 ∧ oneMinute.millis ∣ 60000 ∧ isSigned (60000 - -120000) ∧
    oneMinute.periodsBetween? (-120000) 60000 = some (oneMinute.aligned (-120000) 60000).ncard ∧
    ∃! j : ℕ, j < (oneMinute.aligned (-120000) 60000).ncard ∧
      (-60000 : Int) = -120000 + j * oneMinute.millis := by
  have hword : isSigned (-1 / oneMinute.millis * oneMinute.millis) := by decide
  have hbefore : oneMinute.periodStart? (-1) = some (-60000) := by decide
  have hafter : oneMinute.periodStart? 1 = some 0 := by decide
  have hnests : oneMinute.millis ∣ oneHour.millis := by decide
  have hf : oneMinute.millis ∣ -120000 := by decide
  have hl : oneMinute.millis ∣ 60000 := by decide
  have hspan : isSigned (60000 - -120000) := by decide
  obtain ⟨hstart,hself,hmono,hnested,hcount⟩ := starts_alignment .oneMinute
  obtain ⟨hcount,hposition⟩ := hcount (-120000) 60000 hf hl (by decide) hspan
  refine ⟨hword,hstart (-1) hword,hbefore,hself _ _ hbefore,hafter,?_,hnests,?_,hf,hl,hspan,
    hcount,?_⟩
  · exact hmono (-1) 1 _ _ hbefore hafter (by decide)
  · exact hnested .oneHour hnests (-1) (by decide)
  · exact (hposition (-60000)).mp ⟨by decide,by decide,by decide⟩

/-- Between two aligned times that are words can lie more time than a word holds, and then they are
not counted. -/
theorem exists_span_without_count : ∃ first last : Int,
    isSigned first ∧ isSigned last ∧ oneMinute.millis ∣ first ∧ oneMinute.millis ∣ last ∧
    first ≤ last ∧ (oneMinute.aligned first last).ncard = 153722867280914 ∧
    oneMinute.periodsBetween? first last = none := by
  have hf : oneMinute.millis ∣ -9223372036854720000 := by decide
  have hl : oneMinute.millis ∣ 60000 := by decide
  refine ⟨-9223372036854720000,60000,by decide,by decide,hf,hl,by decide,?_,by decide⟩
  rw [ncard_aligned hf hl]
  decide

end OrderFlow.Timeframe
