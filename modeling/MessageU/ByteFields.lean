import Mathlib

/- Byte strings and the fixed-width unsigned fields written in them. A field of
   width w holds the value modulo 256 ^ w; the most significant byte of a
   big-endian field comes first. The shift forms are the ones hand-written
   encoders use. -/
namespace ByteFields

abbrev Byte := UInt8
abbrev Bytes := List UInt8

def slice (bs : Bytes) (start stop : Nat) : Bytes := (bs.take stop).drop start

def strip (b : Byte) (bs : Bytes) : Bytes :=
  ((bs.dropWhile (· == b)).reverse.dropWhile (· == b)).reverse

def continues (b : Byte) : Bool := 0x80 ≤ b && b ≤ 0xbf

/-- The well-formed UTF-8 strings: no overlong form, no surrogate, nothing past
    the last code point. -/
def validUtf8 : Bytes → Bool
  | [] => true
  | a :: rest =>
    if a < 0x80 then validUtf8 rest
    else match rest with
      | [] => false
      | b :: rest =>
        if 0xc2 ≤ a && a ≤ 0xdf then continues b && validUtf8 rest
        else match rest with
          | [] => false
          | c :: rest =>
            if 0xe0 ≤ a && a ≤ 0xef then
              continues b && (a != 0xe0 || 0xa0 ≤ b) && (a != 0xed || b ≤ 0x9f) &&
                continues c && validUtf8 rest
            else match rest with
              | [] => false
              | d :: rest =>
                0xf0 ≤ a && a ≤ 0xf4 && continues b && (a != 0xf0 || 0x90 ≤ b) &&
                  (a != 0xf4 || b ≤ 0x8f) && continues c && continues d && validUtf8 rest

def bigEndian : Nat → Nat → Bytes
  | 0, _ => []
  | w + 1, n => UInt8.ofNat (n / 256 ^ w) :: bigEndian w n

def fromBigEndian : Bytes → Nat
  | [] => 0
  | b :: bs => b.toNat * 256 ^ bs.length + fromBigEndian bs

def littleEndian : Nat → Nat → Bytes
  | 0, _ => []
  | w + 1, n => UInt8.ofNat n :: littleEndian w (n / 256)

def fromLittleEndian : Bytes → Nat
  | [] => 0
  | b :: bs => b.toNat + 256 * fromLittleEndian bs

theorem slice_middle {start stop : Nat} (front middle back : Bytes) (hs : front.length = start)
    (ht : front.length + middle.length = stop) :
    slice (front ++ (middle ++ back)) start stop = middle := by
  subst hs ht
  rw [slice, ← List.append_assoc, List.take_left' (by simp), List.drop_left]

theorem slice_length (bs : Bytes) {start stop : Nat} (inside : stop ≤ bs.length) :
    (slice bs start stop).length = stop - start := by
  simp [slice, Nat.min_eq_left inside]

theorem slice_shift (front back : Bytes) (start stop : Nat) :
    slice (front ++ back) (front.length + start) (front.length + stop) = slice back start stop := by
  rw [slice, List.take_length_add_append, List.drop_length_add_append, slice]

theorem strip_length (b : Byte) (bs : Bytes) : (strip b bs).length ≤ bs.length := by
  rw [strip, List.length_reverse]
  calc _ ≤ (bs.dropWhile (· == b)).reverse.length := (List.dropWhile_sublist _).length_le
    _ = (bs.dropWhile (· == b)).length := List.length_reverse
    _ ≤ bs.length := (List.dropWhile_sublist _).length_le

theorem strip_head (b : Byte) (bs : Bytes) : (strip b bs).head? ≠ some b := by
  intro leads
  rw [strip, List.head?_reverse] at leads
  have suffix := List.dropWhile_suffix (l := (bs.dropWhile (· == b)).reverse) (· == b)
  obtain ⟨front, joined⟩ := suffix
  have last : (bs.dropWhile (· == b)).reverse.getLast? = some b := by
    rw [← joined, List.getLast?_append, leads]
    rfl
  rw [List.getLast?_reverse] at last
  have stopped := List.head?_dropWhile_not (· == b) bs
  rw [last] at stopped
  simp at stopped

theorem strip_last (b : Byte) (bs : Bytes) : (strip b bs).getLast? ≠ some b := by
  intro ends
  rw [strip, List.getLast?_reverse] at ends
  have stopped := List.head?_dropWhile_not (· == b) (bs.dropWhile (· == b)).reverse
  rw [ends] at stopped
  simp at stopped

theorem drop_while_stops {b : Byte} {bs : Bytes} (leads : bs.head? ≠ some b) :
    bs.dropWhile (· == b) = bs := by
  cases bs with
  | nil => rfl
  | cons a rest =>
    have other : a ≠ b := by simpa using leads
    simp [other]

/-- What was filled up at its end comes back, unless it begins or ends with the filling. -/
theorem strip_filled {b : Byte} {bs : Bytes} (head : bs.head? ≠ some b)
    (last : bs.getLast? ≠ some b) (k : Nat) : strip b (bs ++ List.replicate k b) = bs := by
  have filling : ∀ x ∈ List.replicate k b, (x == b) = true := by
    intro x hx
    simp [List.eq_of_mem_replicate hx]
  cases bs with
  | nil =>
    have nothing : (List.replicate k b).dropWhile (· == b) = [] :=
      List.dropWhile_eq_nil_iff.mpr filling
    simp [strip, nothing]
  | cons a rest =>
    have front : (a :: rest ++ List.replicate k b).head? ≠ some b := by simpa using head
    have back : (a :: rest).reverse.head? ≠ some b := by
      rw [List.head?_reverse]
      exact last
    rw [strip, drop_while_stops front, List.reverse_append, List.reverse_replicate,
      List.dropWhile_append_of_pos filling, drop_while_stops back, List.reverse_reverse]

def untilZero (bs : Bytes) : Bytes := bs.takeWhile (· != 0)

theorem take_until_zero (bs : Bytes) :
    bs.take ((bs.findIdx? (· == 0)).getD bs.length) = untilZero bs := by
  unfold untilZero
  induction bs with
  | nil => rfl
  | cons a rest ih =>
    by_cases zero : a = 0
    · simp [zero, List.findIdx?_cons]
    · simp only [List.findIdx?_cons, zero, beq_iff_eq, ↓reduceIte, List.length_cons, bne_iff_ne,
        ne_eq, not_false_eq_true, List.takeWhile_cons_of_pos]
      rw [← ih]
      cases rest.findIdx? (· == 0) <;> simp

theorem until_zero_padded (bs : Bytes) (k : Nat) :
    untilZero (bs ++ List.replicate k 0) = untilZero bs := by
  unfold untilZero
  induction bs with
  | nil => cases k <;> simp [List.replicate_succ]
  | cons a rest ih =>
    by_cases zero : a = 0
    · simp [zero]
    · simp [zero, ih]

theorem until_zero_free {bs : Bytes} (free : (0 : Byte) ∉ bs) : untilZero bs = bs := by
  unfold untilZero
  rw [List.takeWhile_eq_self_iff]
  intro x hx
  simp only [bne_iff_ne, ne_eq]
  intro zero
  exact free (zero ▸ hx)

theorem byte_value (n : Nat) : (UInt8.ofNat n).toNat = n % 256 := UInt8.toNat_ofNat'

@[simp] theorem big_endian_length (w n : Nat) : (bigEndian w n).length = w := by
  induction w with
  | zero => rfl
  | succ w ih => simp [bigEndian, ih]

@[simp] theorem little_endian_length (w n : Nat) : (littleEndian w n).length = w := by
  induction w generalizing n with
  | zero => rfl
  | succ w ih => simp [littleEndian, ih]

theorem from_big_endian_bound (bs : Bytes) : fromBigEndian bs < 256 ^ bs.length := by
  induction bs with
  | nil => simp [fromBigEndian]
  | cons b bs ih =>
    have digit : b.toNat + 1 ≤ 256 := b.toNat_lt
    have scaled := Nat.mul_le_mul_right (256 ^ bs.length) digit
    simp only [fromBigEndian, List.length_cons, pow_succ]
    rw [Nat.add_mul] at scaled
    omega

theorem from_big_endian_mod (w n : Nat) : fromBigEndian (bigEndian w n) = n % 256 ^ w := by
  induction w with
  | zero => simp [bigEndian, fromBigEndian, Nat.mod_one]
  | succ w ih =>
    simp only [bigEndian, fromBigEndian, big_endian_length, ih, byte_value]
    rw [Nat.pow_succ, Nat.mod_mul, Nat.mul_comm, Nat.add_comm]

theorem from_big_endian_of_lt {w n : Nat} (fits : n < 256 ^ w) :
    fromBigEndian (bigEndian w n) = n := by
  rw [from_big_endian_mod, Nat.mod_eq_of_lt fits]

theorem from_little_endian_mod (w n : Nat) :
    fromLittleEndian (littleEndian w n) = n % 256 ^ w := by
  induction w generalizing n with
  | zero => simp [littleEndian, fromLittleEndian, Nat.mod_one]
  | succ w ih =>
    simp only [littleEndian, fromLittleEndian, ih, byte_value]
    rw [Nat.pow_succ', Nat.mod_mul]

theorem from_little_endian_of_lt {w n : Nat} (fits : n < 256 ^ w) :
    fromLittleEndian (littleEndian w n) = n := by
  rw [from_little_endian_mod, Nat.mod_eq_of_lt fits]

theorem little_endian_of_bytes (bs : Bytes) :
    littleEndian bs.length (fromLittleEndian bs) = bs := by
  induction bs with
  | nil => rfl
  | cons b bs ih =>
    have digit := b.toNat_lt
    have low : UInt8.ofNat (b.toNat + 256 * fromLittleEndian bs) = b := by
      apply UInt8.toNat_inj.mp
      rw [byte_value]
      omega
    have high : (b.toNat + 256 * fromLittleEndian bs) / 256 = fromLittleEndian bs := by omega
    simp only [List.length_cons, littleEndian, fromLittleEndian, low, high, ih]

theorem big_endian_congr {w m n : Nat} (same : m % 256 ^ w = n % 256 ^ w) :
    bigEndian w m = bigEndian w n := by
  induction w with
  | zero => rfl
  | succ w ih =>
    have low : m % 256 ^ w = n % 256 ^ w := by
      have := congrArg (· % 256 ^ w) same
      simpa only [pow_succ, Nat.mod_mul_right_mod] using this
    have high : m / 256 ^ w % 256 = n / 256 ^ w % 256 := by
      have := congrArg (· / 256 ^ w) same
      simpa only [pow_succ, Nat.mod_mul_right_div_self] using this
    simp only [bigEndian, ih low]
    congr 1
    apply UInt8.toNat_inj.mp
    simpa using high

theorem big_endian_of_bytes (bs : Bytes) : bigEndian bs.length (fromBigEndian bs) = bs := by
  induction bs with
  | nil => rfl
  | cons b bs ih =>
    have bound := from_big_endian_bound bs
    have positive : 0 < 256 ^ bs.length := by positivity
    have rest : bigEndian bs.length (b.toNat * 256 ^ bs.length + fromBigEndian bs) =
        bigEndian bs.length (fromBigEndian bs) := by
      apply big_endian_congr
      rw [Nat.mul_comm, Nat.mul_add_mod]
    simp only [List.length_cons, bigEndian, fromBigEndian, rest, ih]
    rw [Nat.mul_comm, Nat.mul_add_div positive, Nat.div_eq_of_lt bound, Nat.add_zero,
      UInt8.ofNat_toNat]

theorem swapped_read (bs : Bytes) :
    fromBigEndian (littleEndian bs.length (fromLittleEndian bs)) = fromBigEndian bs := by
  rw [little_endian_of_bytes]

theorem shifted_word (n : Nat) :
    [UInt8.ofNat (n >>> 24), UInt8.ofNat (n >>> 16), UInt8.ofNat (n >>> 8), UInt8.ofNat n] =
      bigEndian 4 n := by
  simp [bigEndian, Nat.shiftRight_eq_div_pow]

theorem shifted_half (n : Nat) :
    [UInt8.ofNat (n >>> 8), UInt8.ofNat (n &&& 0xff)] = bigEndian 2 n := by
  have low : n &&& 0xff = n % 256 := Nat.and_two_pow_sub_one_eq_mod n 8
  simp only [bigEndian, Nat.shiftRight_eq_div_pow, low]
  congr 2
  apply UInt8.toNat_inj.mp
  simp

end ByteFields
