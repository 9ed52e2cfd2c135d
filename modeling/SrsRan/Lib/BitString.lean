import Mathlib.Tactic.Ring
import Mathlib.Data.List.Induction

/-!
# Bit strings as numbers

A bit string is its length and the number that it writes in base two, the first bit being the most significant one.  What
was pushed at a position is what `get` finds there, in every extension of the string (`get_push`, `IsPrefix.get_eq`).
-/

namespace SrsRan.Lib

open List Nat

/-- A string of bits, as a number and its length. -/
@[ext]
structure BitString where
  len : ℕ
  val : ℕ
  val_lt : val < 2 ^ len

namespace BitString

variable (s t u : BitString)

def nil : BitString := ⟨0, 0, Nat.one_pos⟩

def push (n v : ℕ) : BitString where
  len := s.len + n
  val := s.val * 2 ^ n + v % 2 ^ n
  val_lt := by
    have h1 := s.val_lt
    have h2 : v % 2 ^ n < 2 ^ n := Nat.mod_lt _ (Nat.two_pow_pos n)
    calc s.val * 2 ^ n + v % 2 ^ n < s.val * 2 ^ n + 2 ^ n := by omega
      _ = (s.val + 1) * 2 ^ n := by ring
      _ ≤ 2 ^ s.len * 2 ^ n := Nat.mul_le_mul_right _ h1
      _ = 2 ^ (s.len + n) := (Nat.pow_add ..).symm

def get (p n : ℕ) : ℕ := s.val / 2 ^ (s.len - (p + n)) % 2 ^ n

/-- `s` is the beginning of `t`. -/
def IsPrefix : Prop := s.len ≤ t.len ∧ t.val / 2 ^ (t.len - s.len) = s.val

variable {s t u}

lemma mul_add_div_of_lt {a b c : ℕ} (h : b < c) : (a * c + b) / c = a := by
  rw [add_comm, add_mul_div_right _ _ (by omega), div_eq_of_lt h, zero_add]

lemma get_lt (p n : ℕ) : s.get p n < 2 ^ n := mod_lt _ (Nat.two_pow_pos n)

lemma get_push (s : BitString) (n v : ℕ) : (s.push n v).get s.len n = v % 2 ^ n := by
  show (s.val * 2 ^ n + v % 2 ^ n) / 2 ^ (s.len + n - (s.len + n)) % 2 ^ n = v % 2 ^ n
  rw [Nat.sub_self, Nat.pow_zero, Nat.div_one, mul_add_mod_self_right, mod_mod]

lemma push_mod (s : BitString) (n v : ℕ) : s.push n (v % 2 ^ n) = s.push n v := by
  ext
  · rfl
  · show s.val * 2 ^ n + v % 2 ^ n % 2 ^ n = s.val * 2 ^ n + v % 2 ^ n
    rw [mod_mod]

lemma push_zero (s : BitString) (v : ℕ) : s.push 0 v = s := by
  ext
  · rfl
  · show s.val * 2 ^ 0 + v % 2 ^ 0 = s.val
    rw [pow_zero, mod_one, mul_one, add_zero]

lemma push_add (s : BitString) (m n v : ℕ) : s.push (m + n) v = (s.push m (v / 2 ^ n)).push n v := by
  ext
  · exact (add_assoc ..).symm
  · show s.val * 2 ^ (m + n) + v % 2 ^ (m + n) = (s.val * 2 ^ m + v / 2 ^ n % 2 ^ m) * 2 ^ n + v % 2 ^ n
    rw [add_comm m n, pow_add, mod_mul]
    ring

/-! ### Prefixes -/

lemma IsPrefix.refl (s : BitString) : s.IsPrefix s := by
  refine ⟨le_rfl, ?_⟩
  rw [Nat.sub_self, Nat.pow_zero, Nat.div_one]

lemma IsPrefix.trans (h : s.IsPrefix t) (h' : t.IsPrefix u) : s.IsPrefix u := by
  refine ⟨h.1.trans h'.1, ?_⟩
  have hlen : u.len - s.len = (u.len - t.len) + (t.len - s.len) := by
    have := h.1
    have := h'.1
    omega
  rw [hlen, pow_add, ← Nat.div_div_eq_div_mul, h'.2, h.2]

lemma isPrefix_push (s : BitString) (n v : ℕ) : s.IsPrefix (s.push n v) := by
  refine ⟨Nat.le_add_right _ _, ?_⟩
  show (s.val * 2 ^ n + v % 2 ^ n) / 2 ^ (s.len + n - s.len) = s.val
  rw [Nat.add_sub_cancel_left, mul_add_div_of_lt (mod_lt _ (Nat.two_pow_pos n))]

def pushAll (s : BitString) (fields : List (ℕ × ℕ)) : BitString := fields.foldl (fun s f => s.push f.2 f.1) s

lemma isPrefix_pushAll (s : BitString) (fields : List (ℕ × ℕ)) : s.IsPrefix (s.pushAll fields) := by
  induction fields generalizing s with
  | nil => exact .refl s
  | cons f fields ih => exact (isPrefix_push s f.2 f.1).trans (ih _)

def width (fields : List (ℕ × ℕ)) : ℕ := (fields.map Prod.snd).sum

lemma len_pushAll (s : BitString) (fields : List (ℕ × ℕ)) : (s.pushAll fields).len = s.len + width fields := by
  induction fields generalizing s with
  | nil => rfl
  | cons f fields ih =>
    show ((s.push f.2 f.1).pushAll fields).len = s.len + (f.2 + width fields)
    rw [ih, ← add_assoc]
    rfl

lemma pushAll_append (s : BitString) (fields fields' : List (ℕ × ℕ)) :
    s.pushAll (fields ++ fields') = (s.pushAll fields).pushAll fields' := by
  rw [pushAll, foldl_append]
  rfl

lemma IsPrefix.get_eq (h : s.IsPrefix t) {p n : ℕ} (hp : p + n ≤ s.len) : t.get p n = s.get p n := by
  have hlen : t.len - (p + n) = (t.len - s.len) + (s.len - (p + n)) := by
    have := h.1
    omega
  rw [get, get, hlen, pow_add, ← Nat.div_div_eq_div_mul, h.2]

lemma get_add {p m n : ℕ} (h : p + m + n ≤ s.len) : s.get p (m + n) = s.get p m * 2 ^ n + s.get (p + m) n := by
  have hlen : s.len - (p + m) = s.len - (p + (m + n)) + n := by omega
  have hlen' : p + m + n = p + (m + n) := by omega
  rw [get, get, get, hlen, hlen', pow_add 2 (s.len - (p + (m + n))) n, ← Nat.div_div_eq_div_mul, add_comm m n,
    pow_add, mod_mul]
  ring

/-! ### Bytes -/

def ofBytes (l : List UInt8) : BitString := l.foldl (fun s b => s.push 8 b.toNat) nil

lemma ofBytes_concat (l : List UInt8) (b : UInt8) : ofBytes (l ++ [b]) = (ofBytes l).push 8 b.toNat := by
  rw [ofBytes, foldl_append]
  rfl

def octets (l : List UInt8) : List (ℕ × ℕ) := l.map fun b => (b.toNat, 8)

lemma ofBytes_append (l l' : List UInt8) : ofBytes (l ++ l') = (ofBytes l).pushAll (octets l') := by
  rw [ofBytes, foldl_append, pushAll, octets, foldl_map]
  rfl

lemma width_octets (l : List UInt8) : width (octets l) = 8 * l.length := by
  induction l with
  | nil => rfl
  | cons b l ih =>
    show 8 + width (octets l) = 8 * (l.length + 1)
    rw [ih]
    ring

lemma len_ofBytes (l : List UInt8) : (ofBytes l).len = 8 * l.length := by
  induction l using reverseRecOn with
  | nil => rfl
  | append_singleton l b ih =>
    rw [ofBytes_concat, length_append, mul_add, ← ih]
    rfl

lemma ofBytes_isPrefix (l l' : List UInt8) : (ofBytes l).IsPrefix (ofBytes (l ++ l')) := by
  induction l' using reverseRecOn with
  | nil =>
    rw [append_nil]
    exact IsPrefix.refl _
  | append_singleton l' b ih =>
    rw [← append_assoc, ofBytes_concat]
    exact ih.trans (isPrefix_push _ _ _)

lemma get_ofBytes {l : List UInt8} {i : ℕ} {b : UInt8} (h : l[i]? = some b) : (ofBytes l).get (8 * i) 8 = b.toNat := by
  obtain ⟨hi, rfl⟩ := List.getElem?_eq_some_iff.mp h
  have hsplit : l = (l.take i ++ [l[i]]) ++ l.drop (i + 1) := by
    rw [append_assoc, List.singleton_append, getElem_cons_drop, List.take_append_drop]
  have hlen : (ofBytes (l.take i)).len = 8 * i := by
    rw [len_ofBytes, length_take, Nat.min_eq_left hi.le]
  have hpre := ofBytes_isPrefix (l.take i ++ [l[i]]) (l.drop (i + 1))
  rw [← hsplit, ofBytes_concat] at hpre
  have hle : 8 * i + 8 ≤ ((ofBytes (l.take i)).push 8 l[i].toNat).len := by
    show _ ≤ (ofBytes (l.take i)).len + 8
    rw [hlen]
  rw [hpre.get_eq hle, ← hlen, get_push, mod_eq_of_lt l[i].toNat_lt]

lemma get_within_byte {l : List UInt8} {i o n : ℕ} {b : UInt8} (h : l[i]? = some b) (ho : o + n ≤ 8) :
    (ofBytes l).get (8 * i + o) n = b.toNat % 2 ^ (8 - o) / 2 ^ (8 - (o + n)) := by
  obtain ⟨hi, -⟩ := List.getElem?_eq_some_iff.mp h
  have hlen := len_ofBytes l
  have hbyte := get_ofBytes h
  have h1 : (ofBytes l).get (8 * i) 8 = (ofBytes l).get (8 * i) o * 2 ^ (8 - o) + (ofBytes l).get (8 * i + o) (8 - o) := by
    have := get_add (s := ofBytes l) (p := 8 * i) (m := o) (n := 8 - o) (by omega)
    rwa [Nat.add_sub_cancel' (by omega : o ≤ 8)] at this
  have h2 : (ofBytes l).get (8 * i + o) (8 - o) =
      (ofBytes l).get (8 * i + o) n * 2 ^ (8 - (o + n)) + (ofBytes l).get (8 * i + o + n) (8 - (o + n)) := by
    have := get_add (s := ofBytes l) (p := 8 * i + o) (m := n) (n := 8 - (o + n)) (by omega)
    rwa [show n + (8 - (o + n)) = 8 - o by omega] at this
  have h3 := get_lt (s := ofBytes l) (8 * i + o) (8 - o)
  have h4 := get_lt (s := ofBytes l) (8 * i + o + n) (8 - (o + n))
  rw [← hbyte, h1, mul_add_mod_self_right, mod_eq_of_lt h3, h2, mul_add_div_of_lt h4]

end BitString

end SrsRan.Lib
