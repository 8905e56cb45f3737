import PodConsole.Proofs.Text.Boundary

namespace PodConsole.Proofs.Encoding
open Text Utf8 Decoding Boundary

/-- A later octet that carries six bits. -/
def later (n : Nat) : UInt8 :=
  UInt8.ofNat (n % 64 + 128)

theorem later_to_nat (n : Nat) : (later n).toNat = n % 64 + 128 := by
  have : n % 64 + 128 < 256 := by omega
  simp [later, Nat.mod_eq_of_lt this]

theorem next_last {p : Partial} {n : Nat} (ho : p.owed = 0)
    (hl : p.low.toNat ≤ n % 64 + 128) (hh : n % 64 + 128 ≤ p.high.toNat) :
    p.next (later n) = .char (Char.ofNat (p.value * 64 + n % 64)) := by
  have hr : ¬ (later n < p.low ∨ p.high < later n) := by
    simp only [UInt8.lt_iff_toNat_lt, later_to_nat]
    omega
  simp [Partial.next, hr, ho, later_to_nat]

theorem next_inner {p : Partial} {n k : Nat} (ho : p.owed = k + 1)
    (hl : p.low.toNat ≤ n % 64 + 128) (hh : n % 64 + 128 ≤ p.high.toNat) :
    p.next (later n) = .more ⟨k, 0x80, 0xBF, p.value * 64 + n % 64⟩ := by
  have hr : ¬ (later n < p.low ∨ p.high < later n) := by
    simp only [UInt8.lt_iff_toNat_lt, later_to_nat]
    omega
  simp [Partial.next, hr, ho, later_to_nat]

theorem lead_of_one {n : Nat} (h : n < 128) : lead (UInt8.ofNat n) = .char (Char.ofNat n) := by
  have all : ∀ m : Fin 128, lead (UInt8.ofNat m) = .char (Char.ofNat m) := by decide
  exact all ⟨n, h⟩

theorem lead_of_two {n : Nat} (hl : 2 ≤ n) (hh : n < 32) :
    lead (UInt8.ofNat (n % 32 + 192)) = .more ⟨0, 0x80, 0xBF, n⟩ := by
  have all : ∀ m : Fin 32, 2 ≤ m.val →
      lead (UInt8.ofNat (m % 32 + 192)) = .more ⟨0, 0x80, 0xBF, m⟩ := by decide
  exact all ⟨n, hh⟩ hl

/-- The first octet of three; `E0` and `ED` keep a narrower range. -/
theorem lead_of_three {n : Nat} (h : n < 16) :
    lead (UInt8.ofNat (n % 16 + 224)) =
      .more ⟨1, if n = 0 then 0xA0 else 0x80, if n = 13 then 0x9F else 0xBF, n⟩ := by
  have all : ∀ m : Fin 16, lead (UInt8.ofNat (m % 16 + 224)) =
      .more ⟨1, if m.val = 0 then 0xA0 else 0x80, if m.val = 13 then 0x9F else 0xBF, m⟩ := by
    decide
  exact all ⟨n, h⟩

/-- The first octet of four; `F0` and `F4` keep a narrower range. -/
theorem lead_of_four {n : Nat} (h : n < 5) :
    lead (UInt8.ofNat (n % 8 + 240)) =
      .more ⟨2, if n = 0 then 0x90 else 0x80, if n = 4 then 0x8F else 0xBF, n⟩ := by
  have all : ∀ m : Fin 5, lead (UInt8.ofNat (m % 8 + 240)) =
      .more ⟨2, if m.val = 0 then 0x90 else 0x80, if m.val = 4 then 0x8F else 0xBF, m⟩ := by
    decide
  exact all ⟨n, h⟩

/-- The code points are those up to `10FFFF` without the surrogates. -/
theorem code_point (c : Char) :
    c.val.toNat < 0xD800 ∨ 0xDFFF < c.val.toNat ∧ c.val.toNat < 0x110000 :=
  c.valid

theorem of_nat_val {c : Char} {n : Nat} (h : n = c.val.toNat) : Char.ofNat n = c := by
  rw [h]
  exact Char.ofNat_toNat c

/-- The octets that the reader takes for one character. -/
inductive Spells : Bytes → Char → Prop
  | alone {b : UInt8} {c : Char} : lead b = .char c → Spells [b] c
  | closed {v : Bytes} {p : Partial} {b : UInt8} {c : Char} :
      Tail v p → p.next b = .char c → Spells (v ++ [b]) c

theorem spells_encode (c : Char) : Spells (String.utf8EncodeChar c) c := by
  have hc := code_point c
  unfold String.utf8EncodeChar
  generalize hv : c.val.toNat = v at hc
  dsimp only
  split
  · have hl := lead_of_one (n := v) (by omega)
    rw [of_nat_val hv.symm] at hl
    exact .alone hl
  split
  · have hl := lead_of_two (n := v / 64) (by omega) (by omega)
    have hn := next_last (p := ⟨0, 0x80, 0xBF, v / 64⟩) (n := v) rfl (by simp) (by simp; omega)
    have hx : v / 64 * 64 + v % 64 = c.val.toNat := by omega
    rw [of_nat_val hx] at hn
    exact .closed (.lead hl) hn
  split
  · have hl := lead_of_three (n := v / 4096) (by omega)
    have hi := next_inner (p := ⟨1, if v / 4096 = 0 then 0xA0 else 0x80,
      if v / 4096 = 13 then 0x9F else 0xBF, v / 4096⟩) (n := v / 64) (k := 0) rfl
      (by dsimp only; split <;> simp; omega) (by dsimp only; split <;> simp <;> omega)
    have hn := next_last (p := ⟨0, 0x80, 0xBF, v / 4096 * 64 + v / 64 % 64⟩) (n := v) rfl
      (by simp) (by simp; omega)
    have hx : (v / 4096 * 64 + v / 64 % 64) * 64 + v % 64 = c.val.toNat := by omega
    rw [of_nat_val hx] at hn
    exact .closed (.next (.lead hl) hi) hn
  · have hl := lead_of_four (n := v / 262144) (by omega)
    have hi := next_inner (p := ⟨2, if v / 262144 = 0 then 0x90 else 0x80,
      if v / 262144 = 4 then 0x8F else 0xBF, v / 262144⟩) (n := v / 4096) (k := 1) rfl
      (by dsimp only; split <;> simp; omega) (by dsimp only; split <;> simp <;> omega)
    have hj := next_inner (p := ⟨1, 0x80, 0xBF, v / 262144 * 64 + v / 4096 % 64⟩) (n := v / 64)
      (k := 0) rfl (by simp) (by simp; omega)
    have hn := next_last
      (p := ⟨0, 0x80, 0xBF, (v / 262144 * 64 + v / 4096 % 64) * 64 + v / 64 % 64⟩) (n := v) rfl
      (by simp) (by simp; omega)
    have hx : ((v / 262144 * 64 + v / 4096 % 64) * 64 + v / 64 % 64) * 64 + v % 64 =
        c.val.toNat := by omega
    rw [of_nat_val hx] at hn
    exact .closed (.next (.next (.lead hl) hi) hj) hn

theorem Spells.decode {v : Bytes} {c : Char} (h : Spells v c) (w : Bytes) :
    Utf8.decode none (v ++ w) = ahead c (Utf8.decode none w) := by
  cases h with
  | alone hl => simp [Utf8.decode, feed, begin, hl, ahead]
  | closed ht hn =>
    rw [List.append_assoc, decode_append, ht.decode, List.singleton_append, decode_last hn]
    rfl

theorem Spells.verdict {v : Bytes} {c : Char} (h : Spells v c) (w : Bytes) (good seen : Nat) :
    verdictFrom none good seen (v ++ w) =
      verdictFrom none (seen + v.length) (seen + v.length) w := by
  cases h with
  | alone hl => simp [verdictFrom, step, hl]
  | closed ht hn =>
    rw [List.append_assoc, verdict_from_tail ht, List.singleton_append]
    simp [verdictFrom, step, hn, Nat.add_assoc]

theorem decode_chars (cs : List Char) :
    decode none (cs.flatMap String.utf8EncodeChar) = (cs, none) := by
  induction cs with
  | nil => rfl
  | cons c cs ih => rw [List.flatMap_cons, (spells_encode c).decode, ih, ahead]

/-- Well-formed octets leave nothing unfinished. -/
theorem left_encode (text : String) : left (encode text) = none := by
  rw [left, encode, decode_chars]

theorem lossy_encode (text : String) : lossy (encode text) = text := by
  rw [lossy, lossy_chars_eq, left_encode, encode, decode_chars]
  simp [closing]

theorem verdict_chars (cs : List Char) (n : Nat) :
    verdictFrom none n n (cs.flatMap String.utf8EncodeChar) = .whole := by
  induction cs generalizing n with
  | nil => rfl
  | cons c cs ih => rw [List.flatMap_cons, (spells_encode c).verdict, ih]

theorem read_encode (text : String) : read? (encode text) = some text := by
  have hverdict : verdict (encode text) = .whole := verdict_chars text.toList 0
  simp only [read?, hverdict, lossy_encode]

end PodConsole.Proofs.Encoding
