import Mathlib.Logic.Function.Iterate
import Mathlib.Data.BitVec

/-!
# Cyclic redundancy checks

A CRC register of `w` bits is the remainder of a bit string, most significant bit first, by the
monic polynomial of degree `w` whose lower coefficients are `poly`. Shifting is linear over
exclusive or, so an error pattern is found or missed whatever the data it falls on. With an odd
polynomial a shift loses nothing: `remainder_burst_ne_zero` finds every burst of at most `w` bits,
`remainder_pair_ne_zero` every pair of bits closer than the period of the register.
-/

namespace Fieldbus.Crc

variable {w : Nat} (poly : BitVec w)

/-- One shift of the register, reduced by the polynomial when the top bit falls out. -/
def shift (c : BitVec w) : BitVec w :=
  if c.msb then (c <<< 1) ^^^ poly else c <<< 1

/-- Shift in one bit at the bottom. -/
def absorb (c : BitVec w) (b : Bool) : BitVec w :=
  shift poly c ^^^ (BitVec.ofBool b).setWidth w

/-- The register after shifting in a bit string. -/
def absorbAll (c : BitVec w) (bits : List Bool) : BitVec w :=
  bits.foldl (absorb poly) c

/-- The remainder of a bit string. -/
def remainder (bits : List Bool) : BitVec w :=
  absorbAll poly 0#w bits

/-! ## Linearity -/

theorem shift_xor (c d : BitVec w) : shift poly (c ^^^ d) = shift poly c ^^^ shift poly d := by
  unfold shift
  rw [BitVec.msb_xor, BitVec.shiftLeft_xor_distrib]
  cases c.msb <;> cases d.msb
  · rfl
  · simp [BitVec.xor_assoc]
  · simp [BitVec.xor_assoc, BitVec.xor_comm poly]
  · have hcancel : poly ^^^ (d <<< 1 ^^^ poly) = d <<< 1 := by
      rw [BitVec.xor_comm, BitVec.xor_assoc, BitVec.xor_self, BitVec.xor_zero]
    simp [BitVec.xor_assoc, hcancel]

@[simp] theorem shift_zero : shift poly 0#w = 0#w := by
  simp [shift]

theorem iterate_shift_xor (n : Nat) (c d : BitVec w) :
    (shift poly)^[n] (c ^^^ d) = (shift poly)^[n] c ^^^ (shift poly)^[n] d := by
  induction n generalizing c d with
  | zero => rfl
  | succ n ih => rw [Function.iterate_succ_apply, shift_xor, ih]; rfl

@[simp] theorem iterate_shift_zero (n : Nat) : (shift poly)^[n] 0#w = 0#w := by
  induction n with
  | zero => rfl
  | succ n ih => rw [Function.iterate_succ_apply, shift_zero, ih]

variable {poly}

/-- An odd polynomial has a lowest coefficient. -/
theorem width_pos (hodd : poly.getLsbD 0 = true) : 0 < w := by
  by_contra hzero
  rw [BitVec.getLsbD_of_ge poly 0 (by omega)] at hodd
  cases hodd

/-- A shift by an odd polynomial sends no other register to zero: a bit that falls out of the top
comes back at the bottom. -/
theorem shift_eq_zero (hodd : poly.getLsbD 0 = true) {c : BitVec w} (h : shift poly c = 0#w) :
    c = 0#w := by
  have hwidth := width_pos hodd
  unfold shift at h
  have hmsb : c.msb = false := by
    by_contra htop
    rw [if_pos (by simpa using htop)] at h
    have hbit : ((c <<< 1) ^^^ poly).getLsbD 0 = true := by simp [hodd]
    rw [h] at hbit
    simp at hbit
  rw [hmsb, if_neg (by simp)] at h
  apply BitVec.eq_of_getLsbD_eq
  intro i hi
  rw [BitVec.msb_eq_getLsbD_last] at hmsb
  by_cases hlast : i = w - 1
  · rw [hlast, hmsb]
    simp
  · have hnext : (c <<< 1).getLsbD (i + 1) = c.getLsbD i := by
      simp [show i + 1 < w by omega, BitVec.getLsbD_eq_getElem hi]
    rw [← hnext, h]
    simp

theorem iterate_shift_eq_zero (hodd : poly.getLsbD 0 = true) {n : Nat} {c : BitVec w}
    (h : (shift poly)^[n] c = 0#w) : c = 0#w := by
  induction n generalizing c with
  | zero => exact h
  | succ n ih => exact shift_eq_zero hodd (ih h)

/-! ## Bit strings -/

variable (poly)

theorem absorb_all_append (c : BitVec w) (first second : List Bool) :
    absorbAll poly c (first ++ second) = absorbAll poly (absorbAll poly c first) second :=
  List.foldl_append

/-- What is already in the register and what is shifted in do not mix. -/
theorem absorb_all_eq (c : BitVec w) (bits : List Bool) :
    absorbAll poly c bits = (shift poly)^[bits.length] c ^^^ remainder poly bits := by
  induction bits generalizing c with
  | nil => simp [absorbAll, remainder]
  | cons b bits ih =>
      show absorbAll poly (absorb poly c b) bits =
        (shift poly)^[bits.length] (shift poly c) ^^^ absorbAll poly (absorb poly 0#w b) bits
      rw [ih, ih (absorb poly 0#w b)]
      simp only [absorb, shift_zero, iterate_shift_xor, BitVec.zero_xor, BitVec.xor_assoc]

theorem remainder_append (first second : List Bool) :
    remainder poly (first ++ second) =
      (shift poly)^[second.length] (remainder poly first) ^^^ remainder poly second := by
  rw [remainder, absorb_all_append, absorb_all_eq]
  rfl

/-- Clear bits only shift. -/
theorem remainder_clear {bits : List Bool} (h : ∀ b ∈ bits, b = false) :
    remainder poly bits = 0#w := by
  induction bits with
  | nil => rfl
  | cons b bits ih =>
      have hrest := ih (fun b hb => h b (by simp [hb]))
      rw [← List.singleton_append, remainder_append, hrest, h b (by simp)]
      have hone : remainder poly [false] = 0#w := by simp [remainder, absorbAll, absorb]
      simp [hone]

/-- At most `w` bits are their own remainder, the last one lowest. -/
theorem remainder_get_lsb {bits : List Bool} (h : bits.length ≤ w) (i : Nat) :
    (remainder poly bits).getLsbD i = bits.reverse[i]?.getD false := by
  induction bits using List.reverseRecOn generalizing i with
  | nil => simp [remainder, absorbAll]
  | append_singleton bits b ih =>
      have hlength : bits.length + 1 ≤ w := by simpa using h
      have hinit := ih (by omega)
      -- the top bit is still clear, so the shift reduces nothing
      have hmsb : (remainder poly bits).msb = false := by
        rw [BitVec.msb_eq_getLsbD_last, hinit]
        simp [show bits.length ≤ w - 1 by omega]
      have hshift : remainder poly (bits ++ [b]) =
          (remainder poly bits <<< 1) ^^^ (BitVec.ofBool b).setWidth w := by
        show absorbAll poly 0#w (bits ++ [b]) = _
        rw [absorb_all_append]
        show absorb poly (remainder poly bits) b = _
        simp [absorb, shift, hmsb]
      rw [hshift, BitVec.getLsbD_xor, List.reverse_concat]
      cases i with
      | zero => simp [show 0 < w by omega]
      | succ i =>
          by_cases hi : i + 1 < w
          · have hbit := hinit i
            rw [BitVec.getLsbD_eq_getElem (by omega)] at hbit
            simp [hi, hbit]
          · have hlong : bits.length ≤ i := by omega
            simp [hi, hlong]

/-- A bit string of at most `w` bits with a set bit has a remainder. -/
theorem remainder_short_ne_zero {bits : List Bool} (h : bits.length ≤ w) (hset : true ∈ bits) :
    remainder poly bits ≠ 0#w := by
  intro hzero
  obtain ⟨i, hi, hget⟩ := List.getElem_of_mem (List.mem_reverse.mpr hset)
  have hbit := remainder_get_lsb poly h i
  rw [hzero, List.getElem?_eq_getElem hi, hget] at hbit
  simp at hbit

/-! ## Bursts and pairs -/

variable {poly}

/-- Clear bits before and after a string do not hide its remainder. -/
theorem remainder_between_ne_zero (hodd : poly.getLsbD 0 = true) {front middle back : List Bool}
    (hfront : ∀ b ∈ front, b = false) (hback : ∀ b ∈ back, b = false)
    (h : remainder poly middle ≠ 0#w) : remainder poly (front ++ (middle ++ back)) ≠ 0#w := by
  intro hzero
  rw [remainder_append, remainder_clear poly hfront, iterate_shift_zero, BitVec.zero_xor,
    remainder_append, remainder_clear poly hback, BitVec.xor_zero] at hzero
  exact h (iterate_shift_eq_zero hodd hzero)

/-- A string without a set bit is clear. -/
theorem clear_of_unset {bits : List Bool} (h : ∀ k : Nat, bits[k]? ≠ some true) :
    ∀ b ∈ bits, b = false := by
  intro b hb
  obtain ⟨k, hk⟩ := List.mem_iff_getElem?.mp hb
  cases b with
  | false => rfl
  | true => exact absurd hk (h k)

/-- A non-zero pattern within `w` consecutive bits has a remainder. -/
theorem remainder_burst_ne_zero (hodd : poly.getLsbD 0 = true) {bits : List Bool}
    (hset : true ∈ bits) {start : Nat}
    (hburst : ∀ k, bits[k]? = some true → start ≤ k ∧ k < start + w) :
    remainder poly bits ≠ 0#w := by
  have hsplit : bits = bits.take start ++ ((bits.drop start).take w ++ bits.drop (start + w)) := by
    rw [← List.drop_drop, List.take_append_drop, List.take_append_drop]
  have hfront : ∀ b ∈ bits.take start, b = false := by
    apply clear_of_unset
    intro k hk
    rw [List.getElem?_take, Option.ite_none_right_eq_some] at hk
    have := hburst k hk.2
    omega
  have hback : ∀ b ∈ bits.drop (start + w), b = false := by
    apply clear_of_unset
    intro k hk
    rw [List.getElem?_drop] at hk
    have := hburst _ hk
    omega
  have hmiddle : true ∈ (bits.drop start).take w := by
    rw [hsplit, List.mem_append, List.mem_append] at hset
    rcases hset with hset | hset | hset
    · cases hfront true hset
    · exact hset
    · cases hback true hset
  rw [hsplit]
  exact remainder_between_ne_zero hodd hfront hback
    (remainder_short_ne_zero poly (by simp) hmiddle)

/-- One bit is its own remainder. -/
theorem remainder_one (hwidth : 0 < w) : remainder poly [true] = 1#w := by
  apply BitVec.eq_of_getLsbD_eq
  intro k hk
  rw [remainder_get_lsb poly (show [true].length ≤ w from hwidth)]
  cases k <;> simp [hk]

/-- A string with two set bits is clear before, between and behind them. -/
theorem pair_split {bits : List Bool} {i j : Nat} (hij : i < j)
    (hbits : ∀ k, bits[k]? = some true ↔ k = i ∨ k = j) :
    ∃ front between back, bits = front ++ ((true :: between ++ [true]) ++ back) ∧
      between.length + 1 = j - i ∧ (∀ b ∈ front, b = false) ∧ (∀ b ∈ between, b = false) ∧
      ∀ b ∈ back, b = false := by
  obtain ⟨hi, hfirst⟩ := List.getElem?_eq_some_iff.mp ((hbits i).mpr (.inl rfl))
  obtain ⟨hj, hlast⟩ := List.getElem?_eq_some_iff.mp ((hbits j).mpr (.inr rfl))
  refine ⟨bits.take i, (bits.drop (i + 1)).take (j - i - 1), bits.drop (j + 1), ?_, ?_, ?_, ?_, ?_⟩
  · have htail : (bits.drop (i + 1)).take (j - i - 1) ++ bits.drop j = bits.drop (i + 1) := by
      have hjoin := List.take_append_drop (j - i - 1) (bits.drop (i + 1))
      rwa [List.drop_drop, show i + 1 + (j - i - 1) = j by omega] at hjoin
    have hjoin := List.take_append_drop i bits
    rw [List.drop_eq_getElem_cons hi, hfirst, ← htail, List.drop_eq_getElem_cons hj, hlast] at hjoin
    simpa using hjoin.symm
  · rw [List.length_take, List.length_drop]
    omega
  · apply clear_of_unset
    intro k hk
    rw [List.getElem?_take, Option.ite_none_right_eq_some] at hk
    have := (hbits k).mp hk.2
    omega
  · apply clear_of_unset
    intro k hk
    rw [List.getElem?_take, Option.ite_none_right_eq_some, List.getElem?_drop] at hk
    have := (hbits _).mp hk.2
    omega
  · apply clear_of_unset
    intro k hk
    rw [List.getElem?_drop] at hk
    have := (hbits _).mp hk
    omega

/-- Two set bits with clear ones between them cancel when the register returns to one. -/
theorem remainder_pair (hwidth : 0 < w) {between : List Bool} (hclear : ∀ b ∈ between, b = false) :
    remainder poly (true :: between ++ [true]) = (shift poly)^[between.length + 1] 1#w ^^^ 1#w := by
  have hone : remainder poly [true] = 1#w := remainder_one hwidth
  have hfirst : remainder poly (true :: between) = (shift poly)^[between.length] 1#w := by
    rw [← List.singleton_append, remainder_append, hone, remainder_clear poly hclear,
      BitVec.xor_zero]
  rw [remainder_append, hfirst, hone, Function.iterate_succ_apply']
  rfl

/-- Two set bits have a remainder when the register does not return to one between them. -/
theorem remainder_pair_ne_zero (hodd : poly.getLsbD 0 = true) {bits : List Bool}
    (hperiod : ∀ n, 0 < n → n < bits.length → (shift poly)^[n] 1#w ≠ 1#w) {i j : Nat}
    (hij : i < j) (hbits : ∀ k, bits[k]? = some true ↔ k = i ∨ k = j) :
    remainder poly bits ≠ 0#w := by
  have hlast := (List.getElem?_eq_some_iff.mp ((hbits j).mpr (.inr rfl))).1
  obtain ⟨front, between, back, hsplit, hlength, hfront, hbetween, hback⟩ := pair_split hij hbits
  have hreturn := hperiod (between.length + 1) (by omega) (by omega)
  rw [hsplit]
  apply remainder_between_ne_zero hodd hfront hback
  rw [remainder_pair (width_pos hodd) hbetween, ne_eq, BitVec.xor_eq_zero_iff]
  exact hreturn

/-! ## Words -/

/-- The bits of a word, most significant first. -/
def wordBits (x : BitVec w) : List Bool :=
  List.ofFn fun i : Fin w => x.getMsbD i

variable (poly)

/-- Feed a word at the top of the register, `w` shifts at once. -/
def feed (c x : BitVec w) : BitVec w :=
  (shift poly)^[w] (c ^^^ x)

@[simp] theorem length_word_bits (x : BitVec w) : (wordBits x).length = w := by
  simp [wordBits]

theorem remainder_word_bits (x : BitVec w) : remainder poly (wordBits x) = x := by
  apply BitVec.eq_of_getLsbD_eq
  intro i hi
  rw [remainder_get_lsb poly (by simp), List.getElem?_reverse (by simpa)]
  simp [wordBits, BitVec.getMsbD, hi, show w - 1 - i < w by omega,
    show w - 1 - (w - 1 - i) = i by omega]

/-- Feeding two sequences of words together feeds each of them. -/
theorem foldl_feed_xor {xs ys : List (BitVec w)} (h : xs.length = ys.length) (c d : BitVec w) :
    (List.zipWith (· ^^^ ·) xs ys).foldl (feed poly) (c ^^^ d) =
      xs.foldl (feed poly) c ^^^ ys.foldl (feed poly) d := by
  induction xs generalizing ys c d with
  | nil =>
      cases ys with
      | nil => rfl
      | cons y ys => simp at h
  | cons x xs ih =>
      cases ys with
      | nil => simp at h
      | cons y ys =>
          have hfeed : feed poly (c ^^^ d) (x ^^^ y) = feed poly c x ^^^ feed poly d y := by
            have hswap : c ^^^ d ^^^ (x ^^^ y) = (c ^^^ x) ^^^ (d ^^^ y) := by
              ac_rfl
            rw [feed, hswap, iterate_shift_xor]
            rfl
          simp only [List.zipWith_cons_cons, List.foldl_cons, hfeed]
          exact ih (by simpa using h) _ _

/-- The register fed with words is `w` shifts ahead of the remainder of their bits. -/
theorem foldl_feed_eq (xs : List (BitVec w)) :
    xs.foldl (feed poly) 0#w = (shift poly)^[w] (remainder poly (xs.flatMap wordBits)) := by
  induction xs using List.reverseRecOn with
  | nil => simp [remainder, absorbAll]
  | append_singleton xs x ih =>
      rw [List.foldl_append, ih, List.flatMap_append, remainder_append]
      simp [feed, remainder_word_bits]

/-- The check at the receiver: the remainder of the words with the check word behind them. -/
theorem foldl_feed_xor_check (xs : List (BitVec w)) (check : BitVec w) :
    xs.foldl (feed poly) 0#w ^^^ check = remainder poly ((xs ++ [check]).flatMap wordBits) := by
  rw [foldl_feed_eq, List.flatMap_append, remainder_append]
  simp [remainder_word_bits]

end Fieldbus.Crc
