import OrderFlow.Proofs.Decimal.Nearest

/-! Long division. At every step the digits so far and the remainder behind them make up the ratio;
so it stops at the exact digits, or at the nearest ones that fit, or the ratio is too large. -/
namespace OrderFlow.Decimal

/-- What a development of a ratio comes to: its digits, or nothing if the ratio is too large. -/
inductive Developed (v : ℚ) : Option (ℕ × ℤ) → Prop
  | digits {q s : ℕ} (rounds : Rounds v q s) : Developed v (some (q,s))
  | tooLarge (large : 2 ^ 96 - 1 / 2 ≤ v) : Developed v none

/-- The digits of a ratio before a place, and the remainder by `d` behind it. -/
structure Remains (v : ℚ) (d q r : ℕ) (s : ℤ) : Prop where
  value : v * 10 ^ s = q + r / d
  lt : r < d

section
variable {v : ℚ} {d q r : ℕ} {s : ℤ}

lemma Remains.nonneg (h : Remains v d q r s) : 0 ≤ v := by
  have hpow : (0 : ℚ) < 10 ^ s := by positivity
  refine nonneg_of_mul_nonneg_left ?_ hpow
  rw [h.value]
  positivity

lemma Remains.rest_nonneg (h : Remains v d q r s) : (0 : ℚ) ≤ r / d ∧ (r : ℚ) / d < 1 := by
  have hd : (0 : ℚ) < d := by exact_mod_cast Nat.zero_lt_of_lt h.lt
  refine ⟨by positivity,?_⟩
  rw [div_lt_one hd]
  exact_mod_cast h.lt

/-- Developing some more places. -/
lemma Remains.next (h : Remains v d q r s) (k : ℕ) :
    Remains v d (q * 10 ^ k + r * 10 ^ k / d) (r * 10 ^ k % d) (s + k) := by
  have hd : (d : ℚ) ≠ 0 := by exact_mod_cast (Nat.zero_lt_of_lt h.lt).ne'
  have hdiv : (r : ℚ) * 10 ^ k = d * (r * 10 ^ k / d : ℕ) + (r * 10 ^ k % d : ℕ) := by
    exact_mod_cast (Nat.div_add_mod (r * 10 ^ k) d).symm
  constructor
  · rw [zpow_add₀ (by norm_num), ← mul_assoc, h.value, zpow_natCast, add_mul, div_mul_eq_mul_div,
      hdiv, add_div, mul_div_cancel_left₀ _ hd]
    push_cast
    rw [add_assoc]
  · exact Nat.mod_lt _ (Nat.zero_lt_of_lt h.lt)

/-- A ratio is at least what its digits say at a place left of the point. -/
lemma Remains.mul_pow_le (h : Remains v d q r s) {k : ℕ} (hk : s + k ≤ 0) :
    (q * 10 ^ k : ℕ) ≤ v := by
  have hpow : (10 : ℚ) ^ k ≤ 10 ^ (-s) := by
    rw [← zpow_natCast]
    exact zpow_le_zpow_right₀ (by norm_num) (by omega)
  have hv : v = (q + r / d) * 10 ^ (-s) := by
    rw [← h.value, mul_assoc, ← zpow_add₀ (by norm_num), add_neg_cancel, zpow_zero, mul_one]
  rw [hv]
  push_cast
  have := h.rest_nonneg.1
  gcongr
  linarith

lemma div_le_half_iff (hd : 0 < d) : (r : ℚ) / d ≤ 1 / 2 ↔ 2 * r ≤ d := by
  rw [div_le_div_iff₀ (by exact_mod_cast hd) two_pos, mul_comm, one_mul]
  exact_mod_cast Iff.rfl

lemma half_le_div_iff (hd : 0 < d) : 1 / 2 ≤ (r : ℚ) / d ↔ d ≤ 2 * r := by
  rw [div_le_div_iff₀ two_pos (by exact_mod_cast hd), mul_comm (r : ℚ), one_mul]
  exact_mod_cast Iff.rfl

/-- The remainder rounds the digits to the nearest. -/
lemma Remains.isNearest_last (h : Remains v d q r s) : IsNearest (v * 10 ^ s)
    (if d < 2 * r ∨ (2 * r = d ∧ q % 2 = 1) then q + 1 else q) := by
  have hd := Nat.zero_lt_of_lt h.lt
  obtain ⟨hr0,hr1⟩ := h.rest_nonneg
  rw [h.value]
  split_ifs with hup
  · apply isNearest_up ((half_le_div_iff hd).mpr (by omega)) hr1.le
    intro hhalf
    have := (div_le_half_iff hd).mp hhalf.le
    omega
  · apply isNearest_down hr0 ((div_le_half_iff hd).mpr (by omega))
    intro hhalf
    have := (half_le_div_iff hd).mp hhalf.ge
    omega

/-- The digits with one place fewer. -/
def dropped (q : ℕ) (beyond : Bool) : ℕ :=
  if 5 < q % 10 ∨ (q % 10 = 5 ∧ (beyond = true ∨ q / 10 % 2 = 1)) then q / 10 + 1 else q / 10

lemma dropPlace_eq (q : ℕ) (beyond : Bool) (s : ℤ) :
    dropPlace q beyond s = if s ≤ 0 then none else some (dropped q beyond,s - 1) := rfl

lemma dropped_lt {beyond : Bool} (hq : q < 2 ^ 97) : dropped q beyond < 2 ^ 96 := by
  rw [dropped]
  split_ifs <;> omega

/-- Digits that are too many are rounded with one place fewer if there is one. -/
lemma developed_dropPlace {beyond : Bool} (hv : 0 ≤ v) (hq : q < 2 ^ 97) (hs : s ≤ 28)
    (hlarge : 2 ^ 96 - 1 / 2 ≤ v * 10 ^ s)
    (hnear : IsNearest (v * 10 ^ s / 10) (dropped q beyond)) :
    Developed v (dropPlace q beyond s) := by
  rw [dropPlace_eq]
  split_ifs with hpoint
  · apply Developed.tooLarge
    exact hlarge.trans (mul_le_of_le_one_right hv (zpow_le_one_of_nonpos₀ (by norm_num) hpoint))
  · obtain ⟨k,rfl⟩ : ∃ k : ℕ, s = (k + 1 : ℕ) := ⟨(s - 1).toNat,by omega⟩
    have hplace : v * 10 ^ ((k + 1 : ℕ) : ℤ) / 10 = v * 10 ^ k := by
      rw [zpow_natCast, pow_succ, ← mul_assoc, mul_div_cancel_right₀ _ (by norm_num)]
    rw [zpow_natCast] at hlarge
    rw [hplace] at hnear
    rw [Nat.cast_succ, add_sub_cancel_right]
    exact .digits ⟨dropped_lt hq,by omega,hnear,Or.inr (Or.inr hlarge)⟩

/-- Dropping a place rounds to the nearest what the digits say, and what lies beyond them. -/
lemma isNearest_dropped {f : ℚ} {beyond : Bool} (h0 : 0 ≤ f) (h1 : f < 1)
    (hbeyond : beyond = true ↔ 0 < f) (q : ℕ) : IsNearest ((q + f) / 10) (dropped q beyond) := by
  have hq : (q : ℚ) = 10 * (q / 10 : ℕ) + (q % 10 : ℕ) := by
    exact_mod_cast (Nat.div_add_mod q 10).symm
  have hdigit : q % 10 < 10 := Nat.mod_lt q (by omega)
  rw [hq, add_assoc, add_div, mul_div_cancel_left₀ _ (by norm_num), dropped]
  generalize q / 10 = a at *
  generalize q % 10 = b at *
  split_ifs with hup
  · have h5 : (5 : ℚ) ≤ b := by
      have : 5 ≤ b := by omega
      exact_mod_cast this
    have h9 : (b : ℚ) ≤ 9 := by exact_mod_cast Nat.lt_succ_iff.mp hdigit
    apply isNearest_up (by linarith) (by linarith)
    intro hhalf
    have hf : ¬ 0 < f := by linarith
    have hb : b = 5 := by
      have : (b : ℚ) ≤ 5 := by linarith
      exact Nat.le_antisymm (by exact_mod_cast this) (by exact_mod_cast h5)
    subst hb
    simpa [hbeyond, hf] using hup
  · obtain ⟨h5,htie⟩ := not_or.mp hup
    rcases (not_lt.mp h5).lt_or_eq with h4 | rfl
    · have h4 : (b : ℚ) ≤ 4 := by exact_mod_cast Nat.lt_succ_iff.mp h4
      exact isNearest_down (by positivity) (by linarith) fun hhalf => by linarith
    · -- halfway, so nothing lies beyond
      obtain ⟨hf,heven⟩ := not_or.mp fun h => htie ⟨rfl,h⟩
      rw [hbeyond, not_lt] at hf
      obtain rfl := le_antisymm hf h0
      exact isNearest_down (by norm_num) (by norm_num) fun _ => by omega

/-- The last digits that fit are rounded up with one place fewer. -/
lemma Remains.roundOver {s : ℕ} (h : Remains v d (2 ^ 96 - 1) r s) (hs : s ≤ 28)
    (hup : d ≤ 2 * r) : Developed v (dropPlace (2 ^ 96) true s) := by
  have hhalf := (half_le_div_iff (Nat.zero_lt_of_lt h.lt)).mpr hup
  have hrest := h.rest_nonneg.2
  have hvalue := h.value
  push_cast at hvalue
  apply developed_dropPlace h.nonneg (by norm_num) (by omega)
  · linarith
  · have hdropped : dropped (2 ^ 96) true = 7922816251426433759354395033 + 1 := by decide
    have hplace : v * 10 ^ (s : ℤ) / 10 =
        (7922816251426433759354395033 : ℕ) + (5 + r / d) / 10 := by
      rw [hvalue]
      norm_num
      linarith
    rw [hdropped, hplace]
    exact isNearest_up (by linarith) (by linarith) fun h => by linarith

/-- The remainder rounds the digits where another place does not fit. -/
lemma Remains.roundLast {s : ℕ} (h : Remains v d q r s) (hq : q < 2 ^ 96) (hs : s ≤ 28)
    (hmost : s = 28 ∨ 2 ^ 96 ≤ q * 10) : Developed v (roundLast d q r s) := by
  have hvalue : v * 10 ^ s = q + r / d := by exact_mod_cast h.value
  have hfull : s = 28 ∨ (2 ^ 96 : ℚ) - 1 / 2 ≤ v * 10 ^ (s + 1) := by
    refine hmost.imp_right fun hmost => ?_
    have hq10 : (2 ^ 96 : ℚ) ≤ q * 10 := by exact_mod_cast hmost
    calc (2 ^ 96 : ℚ) - 1 / 2 ≤ (q + r / d) * 10 := by linarith [h.rest_nonneg.1]
      _ = v * 10 ^ (s + 1) := by rw [← hvalue, mul_assoc, ← pow_succ]
  have hnear := h.isNearest_last
  rw [Decimal.roundLast]
  split_ifs at hnear ⊢ with hup hfits
  · exact .digits ⟨hfits,hs,mod_cast hnear,Or.inr hfull⟩
  · obtain rfl : q = 2 ^ 96 - 1 := by omega
    exact h.roundOver hs (by omega)
  · exact .digits ⟨hq,hs,mod_cast hnear,Or.inr hfull⟩

end

/-- A search upwards ends at the last number that passes. -/
lemma foldl_last (p : ℕ → Prop) [DecidablePred p] (n : ℕ) {k : ℕ}
    (h : ((List.range n).map (· + 1)).foldl (fun best k => if p k then k else best) 0 = k) :
    k ≤ n ∧ (k ≠ 0 → p k) ∧ ∀ j, k < j → j ≤ n → ¬ p j := by
  induction n generalizing k with
  | zero =>
    subst h
    exact ⟨le_rfl,fun hne => absurd rfl hne,by omega⟩
  | succ n ih =>
    rw [List.range_succ, List.map_append, List.foldl_append] at h
    change (if p (n + 1) then n + 1 else _) = k at h
    split_ifs at h with hp
    · subst h
      exact ⟨le_rfl,fun _ => hp,by omega⟩
    · obtain ⟨hle,hpass,hlast⟩ := ih h
      refine ⟨by omega,hpass,fun j hj hjn => ?_⟩
      rcases hjn.lt_or_eq with hjn | rfl
      · exact hlast j hj (by omega)
      · exact hp

/-- The next places fit, and one more would not, unless there are nine. -/
lemma room_spec (q : ℕ) (s : ℤ) : room q s ≤ 9 ∧
    (room q s ≠ 0 → s + room q s ≤ 28 ∧ q * 10 ^ room q s < 2 ^ 96) ∧
    (room q s < 9 → s + room q s < 28 → 2 ^ 96 ≤ q * 10 ^ (room q s + 1)) := by
  obtain ⟨hle,hfits,hlast⟩ :=
    foldl_last (fun k => s + (k : ℤ) ≤ 28 ∧ q * 10 ^ k < 2 ^ 96) 9 (rfl : _ = room q s)
  refine ⟨hle,hfits,fun h9 h28 => ?_⟩
  have hnext := hlast (room q s + 1) (by omega) h9
  by_contra hlt
  exact hnext ⟨by omega,not_le.mp hlt⟩

/-- How many places are developed at once. -/
def places (q r : ℕ) (s : ℤ) : ℕ := if r = 0 then min 9 (-s).toNat else room q s

lemma develop_succ (d fuel q r : ℕ) (s : ℤ) : develop d (fuel + 1) q r s =
    if r = 0 ∧ 0 ≤ s then some (q,s)
    else if r ≠ 0 ∧ places q r s < 9 ∧ s + places q r s < 0 then none
    else if places q r s = 0 then roundLast d q r s
    else if 2 ^ 96 ≤ q * 10 ^ places q r s then none
    else if q * 10 ^ places q r s + r * 10 ^ places q r s / d < 2 ^ 96 then
      develop d fuel (q * 10 ^ places q r s + r * 10 ^ places q r s / d)
        (r * 10 ^ places q r s % d) (s + places q r s)
    else dropPlace (q * 10 ^ places q r s + r * 10 ^ places q r s / d)
      (r * 10 ^ places q r s % d ≠ 0) (s + places q r s) := rfl

section
variable {v : ℚ} {d q r : ℕ} {s : ℤ}

lemma add_places_le (q r : ℕ) (hs : s ≤ 28) : places q r s ≤ 9 ∧ s + places q r s ≤ 28 := by
  obtain ⟨h9,hfits,-⟩ := room_spec q s
  rw [places]
  split_ifs with hr
  · omega
  · refine ⟨h9,?_⟩
    by_cases h0 : room q s = 0
    · omega
    · exact (hfits h0).1

/-- Without a remainder the digits are only brought to the point. -/
lemma places_of_exact (q : ℕ) (hs : s < 0) : places q 0 s ≠ 0 ∧ s + places q 0 s ≤ 0 := by
  rw [places, if_pos rfl]
  omega

/-- With a remainder the digits fit at the places developed, but not at more. -/
lemma places_of_remainder (hr : r ≠ 0) (hq : q < 2 ^ 96) : q * 10 ^ places q r s < 2 ^ 96 ∧
    (places q r s < 9 → s + places q r s < 28 → 2 ^ 96 ≤ q * 10 ^ (places q r s + 1)) := by
  obtain ⟨-,hfits,hfull⟩ := room_spec q s
  rw [places, if_neg hr]
  refine ⟨?_,hfull⟩
  by_cases h0 : room q s = 0
  · rwa [h0, pow_zero, mul_one]
  · exact (hfits h0).2

/-- A ratio whose digits do not fit left of the point is too large. -/
lemma Remains.tooLarge (h : Remains v d q r s) {k : ℕ} (hk : s + k ≤ 0) (hq : 2 ^ 96 ≤ q * 10 ^ k) :
    Developed v none := by
  have hle : (2 ^ 96 : ℚ) ≤ (q * 10 ^ k : ℕ) := by exact_mod_cast hq
  exact .tooLarge (by linarith [h.mul_pow_le hk])

lemma Remains.exact (h : Remains v d q 0 s) (hq : q < 2 ^ 96) (hs : s ≤ 28) (h0 : 0 ≤ s) :
    Developed v (some (q,s)) := by
  lift s to ℕ using h0
  have hvalue : v * 10 ^ s = q := by simpa using h.value
  refine .digits ⟨hq,by omega,?_,Or.inl hvalue.symm⟩
  rw [hvalue]
  exact isNearest_natCast q

/-- Digits that become too many with the next places are rounded with one place fewer. -/
lemma Remains.dropNext (h : Remains v d q r s) {k : ℕ} (hk : k ≤ 9) (hs : s + k ≤ 28)
    (hq : q * 10 ^ k < 2 ^ 96) (hover : 2 ^ 96 ≤ q * 10 ^ k + r * 10 ^ k / d) :
    Developed v (dropPlace (q * 10 ^ k + r * 10 ^ k / d) (r * 10 ^ k % d ≠ 0) (s + k)) := by
  have hnext := h.next k
  obtain ⟨hr0,hr1⟩ := hnext.rest_nonneg
  have hd := Nat.zero_lt_of_lt h.lt
  have hpow : 10 ^ k ≤ 10 ^ 9 := Nat.pow_le_pow_right (by omega) hk
  have hdigits : r * 10 ^ k / d ≤ 10 ^ k :=
    Nat.div_le_of_le_mul (Nat.mul_le_mul_right _ h.lt.le)
  apply developed_dropPlace h.nonneg (by omega) hs
  · have : (2 ^ 96 : ℚ) ≤ (q * 10 ^ k + r * 10 ^ k / d : ℕ) := by exact_mod_cast hover
    rw [hnext.value]
    linarith
  · rw [hnext.value]
    apply isNearest_dropped hr0 hr1
    rw [decide_eq_true_eq, ← Nat.pos_iff_ne_zero, div_pos_iff_of_pos_right (by exact_mod_cast hd)]
    exact_mod_cast Iff.rfl

/-- Long division develops a ratio. -/
theorem Remains.develop {fuel : ℕ} (h : Remains v d q r s) (hq : q < 2 ^ 96) (hs : s ≤ 28)
    (hfuel : 28 - s < fuel) : Developed v (develop d fuel q r s) := by
  induction fuel generalizing q r s with
  | zero => omega
  | succ fuel ih =>
    obtain ⟨h9,h28⟩ := add_places_le q r hs
    rw [develop_succ]
    split_ifs with hexact hover hlast hdigits hmore
    · obtain ⟨rfl,h0⟩ := hexact
      exact h.exact hq hs h0
    · obtain ⟨hr,hlt,hneg⟩ := hover
      exact h.tooLarge (k := places q r s + 1) (by omega)
        ((places_of_remainder hr hq).2 hlt (by omega))
    · have hr : r ≠ 0 := by
        rintro rfl
        exact (places_of_exact q (by omega)).1 hlast
      have h0 : 0 ≤ s := by omega
      lift s to ℕ using h0
      apply h.roundLast hq (by omega)
      have hfull := (places_of_remainder (s := s) hr hq).2
      rw [hlast] at hfull
      by_cases hs : s = 28
      · exact Or.inl hs
      · exact Or.inr (hfull (by omega) (by omega))
    · have hr : r = 0 := by
        by_contra hr
        exact absurd (places_of_remainder hr hq).1 (not_lt.mpr hdigits)
      subst hr
      exact h.tooLarge (places_of_exact q (by omega)).2 hdigits
    · exact ih (h.next _) hmore h28 (by omega)
    · exact h.dropNext h9 h28 (not_le.mp hdigits) (not_lt.mp hmore)

end

end OrderFlow.Decimal
