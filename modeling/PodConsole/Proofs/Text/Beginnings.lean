import Mathlib.Algebra.Group.Nat.Defs
import PodConsole.Proofs.Text.Encoding

namespace PodConsole.Proofs.Beginnings
open Text Utf8 Decoding Boundary Encoding

/-- A proper beginning of the octets of a character, and not an empty one. -/
def Begins (v : Bytes) : Prop :=
  v ≠ [] ∧ ∃ c : Char, v <+: String.utf8EncodeChar c ∧ v ≠ String.utf8EncodeChar c

theorem tail_front {v w : Bytes} {p : Partial} (h : Tail v p) (hw : w <+: v) (hn : w ≠ []) :
    ∃ q, Tail w q := by
  induction h with
  | @lead b p hl =>
    rcases List.prefix_cons_iff.mp hw with he | ⟨r, rfl, hr⟩
    · exact (hn he).elim
    · rw [List.prefix_nil.mp hr]
      exact ⟨p, .lead hl⟩
  | next ht hb ih =>
    rcases List.prefix_concat_iff.mp hw with rfl | hw
    · exact ⟨_, .next ht hb⟩
    · exact ih hw

theorem Begins.tail {v : Bytes} (h : Begins v) : ∃ p, Tail v p := by
  obtain ⟨hn, c, hv, hne⟩ := h
  have hc := spells_encode c
  generalize String.utf8EncodeChar c = w at hv hne hc
  cases hc with
  | alone hl =>
    rcases List.prefix_cons_iff.mp hv with he | ⟨r, rfl, hr⟩
    · exact (hn he).elim
    · rw [List.prefix_nil.mp hr] at hne
      exact (hne rfl).elim
  | closed ht hb =>
    rcases List.prefix_concat_iff.mp hv with he | hv
    · exact (hne he).elim
    · exact tail_front ht hv hn

/-- The code points that take `k` octets after the first. -/
def Fits : Nat → Nat → Prop
  | 1, n => 0x80 ≤ n ∧ n < 0x800
  | 2, n => 0x800 ≤ n ∧ n < 0xD800 ∨ 0xDFFF < n ∧ n < 0x10000
  | 3, n => 0x10000 ≤ n ∧ n < 0x110000
  | _, _ => False

/-- What tells in the first octet how many come after it. -/
def mark : Nat → Nat
  | 1 => 0xC0
  | 2 => 0xE0
  | _ => 0xF0

/-- The last `k` octets of a code point. -/
def laters (n : Nat) : Nat → Bytes
  | 0 => []
  | k + 1 => later (n / 64 ^ k) :: laters n k

def octets (k n : Nat) : Bytes :=
  UInt8.ofNat (mark k + n / 64 ^ k) :: laters n k

theorem laters_length (n k : Nat) : (laters n k).length = k := by
  induction k with
  | zero => rfl
  | succ k ih => rw [laters, List.length_cons, ih]

theorem fits_code_point {k n : Nat} (h : Fits k n) : ∃ c : Char, c.val.toNat = n := by
  have hn : n.isValidChar := by
    unfold Nat.isValidChar
    match k, h with
    | 1, h => exact .inl (Nat.lt_trans h.2 (by decide))
    | 2, h => exact h.imp And.right fun h => ⟨h.1, Nat.lt_trans h.2 (by decide)⟩
    | 3, h => exact .inr ⟨Nat.lt_of_lt_of_le (by decide) h.1, h.2⟩
  refine ⟨Char.ofNat n, ?_⟩
  rw [Char.ofNat, dif_pos hn]
  rfl

theorem encode_octets {k : Nat} {c : Char} (h : Fits k c.val.toNat) :
    String.utf8EncodeChar c = octets k c.val.toNat := by
  unfold String.utf8EncodeChar
  generalize c.val.toNat = n at h
  dsimp only
  match k, h with
  | 1, h =>
    obtain ⟨hl, hh⟩ := h
    have hfirst : n / 64 % 32 + 192 = 192 + n / 64 := by omega
    rw [if_neg (by omega), if_pos (by omega), hfirst]
    simp only [octets, laters, later, mark, Nat.pow_zero, Nat.pow_one, Nat.div_one]
  | 2, h =>
    have hbounds : 0x800 ≤ n ∧ n < 0x10000 := by rcases h with ⟨hl, hh⟩ | ⟨hl, hh⟩ <;> omega
    have hfirst : n / 4096 % 16 + 224 = 224 + n / 4096 := by omega
    rw [if_neg (by omega), if_neg (by omega), if_pos (by omega), hfirst]
    simp only [octets, laters, later, mark, Nat.pow_zero, Nat.pow_one, Nat.div_one, Nat.reducePow]
  | 3, h =>
    obtain ⟨hl, hh⟩ := h
    have hfirst : n / 262144 % 8 + 240 = 240 + n / 262144 := by omega
    rw [if_neg (by omega), if_neg (by omega), if_neg (by omega), hfirst]
    simp only [octets, laters, later, mark, Nat.pow_zero, Nat.pow_one, Nat.div_one, Nat.reducePow]

/-- The first octets of several, with what they allow next. -/
inductive Leads (b : UInt8) : Partial → Prop
  | two : 0xC2 ≤ b.toNat → b.toNat < 0xE0 → Leads b ⟨0, 0x80, 0xBF, b.toNat - 0xC0⟩
  | overlong : b.toNat = 0xE0 → Leads b ⟨1, 0xA0, 0xBF, 0⟩
  | surrogate : b.toNat = 0xED → Leads b ⟨1, 0x80, 0x9F, 0xD⟩
  | three : 0xE0 < b.toNat → b.toNat < 0xF0 → b.toNat ≠ 0xED →
      Leads b ⟨1, 0x80, 0xBF, b.toNat - 0xE0⟩
  | lowest : b.toNat = 0xF0 → Leads b ⟨2, 0x90, 0xBF, 0⟩
  | four : 0xF0 < b.toNat → b.toNat < 0xF4 → Leads b ⟨2, 0x80, 0xBF, b.toNat - 0xF0⟩
  | highest : b.toNat = 0xF4 → Leads b ⟨2, 0x80, 0x8F, 4⟩

theorem lead_leads {b : UInt8} {p : Partial} (h : lead b = .more p) : Leads b p := by
  unfold lead at h
  simp only [UInt8.lt_iff_toNat_lt, ← UInt8.toNat_inj, UInt8.reduceToNat] at h
  split at h
  · cases h
  split at h
  · cases h
  split at h
  · cases h
    exact .two (by omega) (by omega)
  split at h
  · cases h
    exact .overlong (by assumption)
  split at h
  · cases h
    exact .surrogate (by assumption)
  split at h
  · cases h
    exact .three (by omega) (by omega) (by assumption)
  split at h
  · cases h
    exact .lowest (by assumption)
  split at h
  · cases h
    exact .four (by omega) (by assumption)
  split at h
  · cases h
    exact .highest (by assumption)
  · cases h

/-- The octets that can come next are later ones, and there are some. -/
structure Open (p : Partial) : Prop where
  low : 0x80 ≤ p.low.toNat
  some : p.low.toNat ≤ p.high.toNat
  high : p.high.toNat ≤ 0xBF

theorem Leads.open {b : UInt8} {p : Partial} (h : Leads b p) : Open p := by
  cases h <;> exact ⟨by simp, by simp, by simp⟩

theorem next_open {p q : Partial} {b : UInt8} (h : p.next b = .more q) :
    Open q ∧ p.owed = q.owed + 1 ∧ q.value = p.value * 64 + (b.toNat - 0x80) ∧
      p.low.toNat ≤ b.toNat ∧ b.toNat ≤ p.high.toNat := by
  unfold Partial.next at h
  split at h
  · contradiction
  · rename_i hb
    dsimp only at h
    split at h
    · contradiction
    · rename_i howed
      injection h with h
      subst q
      simp only [UInt8.lt_iff_toNat_lt] at hb
      exact ⟨⟨by simp, by simp, by simp⟩, howed, rfl, by omega, by omega⟩

theorem tail_open {v : Bytes} {p : Partial} (h : Tail v p) : Open p := by
  cases h with
  | lead hl => exact (lead_leads hl).open
  | next _ hb => exact (next_open hb).1

/-- The code points that an unfinished character can still become. -/
structure Allows (p : Partial) (n : Nat) : Prop where
  front : n / 64 ^ (p.owed + 1) = p.value
  low : p.low.toNat ≤ n / 64 ^ p.owed % 64 + 0x80
  high : n / 64 ^ p.owed % 64 + 0x80 ≤ p.high.toNat

theorem Open.allows {p : Partial} (h : Open p) : ∃ n, Allows p n := by
  obtain ⟨hlow, hsome, hhigh⟩ := h
  have hmod : (p.value * 64 + (p.low.toNat - 0x80)) % 64 = p.low.toNat - 0x80 := by omega
  have hdiv : (p.value * 64 + (p.low.toNat - 0x80)) * 64 ^ p.owed / 64 ^ p.owed =
      p.value * 64 + (p.low.toNat - 0x80) :=
    Nat.mul_div_cancel _ (Nat.pow_pos (by decide))
  refine ⟨(p.value * 64 + (p.low.toNat - 0x80)) * 64 ^ p.owed, ?_, ?_, ?_⟩
  · rw [Nat.pow_succ, ← Nat.div_div_eq_div_mul, hdiv]
    omega
  · rw [hdiv, hmod]
    omega
  · rw [hdiv, hmod]
    omega

/-- What an octet leaves was allowed before it, and has this octet. -/
theorem Allows.before {p q : Partial} {b : UInt8} {n : Nat} (hn : Allows q n) (hp : Open p)
    (h : p.next b = .more q) : Allows p n ∧ b = later (n / 64 ^ p.owed) := by
  obtain ⟨-, howed, hvalue, hlow, hhigh⟩ := next_open h
  have hfront : n / 64 ^ p.owed = p.value * 64 + (b.toNat - 0x80) := by
    rw [howed, hn.front, hvalue]
  have hl := hp.low
  have hh := hp.high
  refine ⟨⟨?_, ?_, ?_⟩, ?_⟩
  · rw [Nat.pow_succ, ← Nat.div_div_eq_div_mul, hfront]
    omega
  · rw [hfront]
    omega
  · rw [hfront]
    omega
  · apply UInt8.toNat_inj.mp
    rw [later_to_nat, hfront]
    omega

theorem Leads.marked {b : UInt8} {p : Partial} (h : Leads b p) :
    b = UInt8.ofNat (mark (p.owed + 1) + p.value) := by
  have hb := UInt8.toNat_lt b
  apply UInt8.toNat_inj.mp
  rw [UInt8.toNat_ofNat']
  cases h <;> simp only [mark] <;> omega

/-- A first octet allows no more than the code points of its length. -/
theorem Leads.fits {b : UInt8} {p : Partial} {n : Nat} (h : Leads b p) (hn : Allows p n) :
    Fits (p.owed + 1) n := by
  obtain ⟨hfront, hlow, hhigh⟩ := hn
  cases h <;>
    simp only [Nat.reduceAdd, Nat.reducePow, UInt8.reduceToNat, Fits] at hfront hlow hhigh ⊢ <;>
    omega

/-- The octets of an unfinished character are those of all that it can become. -/
theorem tail_octets {v : Bytes} {p : Partial} (h : Tail v p) {n : Nat} (hn : Allows p n) :
    Fits (v.length + p.owed) n ∧
      octets (v.length + p.owed) n = v ++ laters n (p.owed + 1) := by
  induction h with
  | @lead b p hl =>
    rw [List.length_singleton, Nat.add_comm]
    refine ⟨(lead_leads hl).fits hn, ?_⟩
    rw [octets, hn.front, ← (lead_leads hl).marked]
    rfl
  | @next v p q b ht hb ih =>
    have howed := (next_open hb).2.1
    obtain ⟨hp, hlater⟩ := hn.before (tail_open ht) hb
    obtain ⟨hfits, hoctets⟩ := ih hp
    have hlength : (v ++ [b]).length + q.owed = v.length + p.owed := by
      rw [List.length_append, List.length_singleton, howed]
      omega
    rw [hlength]
    refine ⟨hfits, ?_⟩
    rw [hoctets, laters, ← hlater, howed, List.append_assoc]
    rfl

theorem tail_begins {v : Bytes} {p : Partial} (h : Tail v p) : Begins v := by
  obtain ⟨n, hn⟩ := (tail_open h).allows
  obtain ⟨hfits, hoctets⟩ := tail_octets h hn
  obtain ⟨c, rfl⟩ := fits_code_point hfits
  rw [← encode_octets hfits] at hoctets
  refine ⟨h.ne_nil, c, ?_, ?_⟩
  · rw [hoctets]
    exact List.prefix_append v _
  · intro he
    rw [hoctets] at he
    have hlength := congrArg List.length he
    rw [List.length_append, laters_length] at hlength
    omega

theorem begins_iff (v : Bytes) : Begins v ↔ ∃ p, Tail v p :=
  ⟨Begins.tail, fun ⟨_, h⟩ => tail_begins h⟩

end PodConsole.Proofs.Beginnings
