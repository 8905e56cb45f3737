import Mathlib.Data.List.Induction
import PodConsole.Text.Utf8

namespace PodConsole.Proofs.Decoding
open Text Utf8

/-- The part of a character that the octets so far have begun. -/
def left (bytes : Bytes) : Option Partial :=
  (decode none bytes).2

/-- What the end of the text makes of an unfinished character. -/
def closing : Option Partial → List Char
  | none => []
  | some _ => [replacement]

theorem lossy_chars_eq (bytes : Bytes) :
    lossyChars bytes = (decode none bytes).1 ++ closing (left bytes) := by
  unfold lossyChars left
  rcases decode none bytes with ⟨cs, _ | p⟩
  · exact (List.append_nil cs).symm
  · rfl

/-- A character read, and what is read after it. -/
def ahead (c : Char) (d : List Char × Option Partial) : List Char × Option Partial :=
  (c :: d.1, d.2)

theorem decode_lead {b : UInt8} {p : Partial} (h : lead b = .more p) (r : Bytes) :
    decode none (b :: r) = decode (some p) r := by
  simp [decode, feed, begin, h]

theorem decode_more {p q : Partial} {b : UInt8} (h : p.next b = .more q) (r : Bytes) :
    decode (some p) (b :: r) = decode (some q) r := by
  simp [decode, feed, h]

theorem decode_last {p : Partial} {b : UInt8} {c : Char} (h : p.next b = .char c) (r : Bytes) :
    decode (some p) (b :: r) = ahead c (decode none r) := by
  simp [decode, feed, h, ahead]

theorem decode_append (p : Option Partial) (u v : Bytes) :
    decode p (u ++ v) =
      ((decode p u).1 ++ (decode (decode p u).2 v).1, (decode (decode p u).2 v).2) := by
  induction u generalizing p with
  | nil => simp [decode]
  | cons b u ih => simp [decode, ih]

theorem left_append (u v : Bytes) : left (u ++ v) = (decode (left u) v).2 := by
  rw [left, decode_append]
  rfl

theorem left_snoc (u : Bytes) (b : UInt8) : left (u ++ [b]) = (feed (left u) b).2 := by
  rw [left_append]
  rfl

/-- Every range of later octets lies between `80` and `BF`, and a character has four octets. -/
structure Owing (p : Partial) : Prop where
  high : p.high ≤ 0xBF
  owed : p.owed ≤ 2

theorem lead_owing {b : UInt8} {p : Partial} (h : lead b = .more p) : Owing p ∧ 0xC2 ≤ b := by
  unfold lead at h
  repeat' split at h
  all_goals first
    | contradiction
    | (injection h with h
       subst p
       exact ⟨⟨by simp, by simp⟩, by simp_all⟩)

theorem next_owing {p q : Partial} {b : UInt8} (h : p.next b = .more q) :
    p.owed = q.owed + 1 ∧ q.high = 0xBF ∧ b ≤ p.high := by
  unfold Partial.next at h
  split at h
  · contradiction
  · rename_i hr
    dsimp only at h
    split at h
    · contradiction
    · rename_i n hn
      injection h with h
      subst q
      refine ⟨hn, rfl, ?_⟩
      rw [not_or] at hr
      exact UInt8.not_lt.mp hr.2

/-- The beginning of a character that is not finished, with what it owes. -/
inductive Tail : Bytes → Partial → Prop
  | lead {b : UInt8} {p : Partial} : Utf8.lead b = .more p → Tail [b] p
  | next {v : Bytes} {p q : Partial} {b : UInt8} :
      Tail v p → p.next b = .more q → Tail (v ++ [b]) q

theorem Tail.owing {v : Bytes} {p : Partial} (h : Tail v p) : Owing p ∧ v.length + p.owed ≤ 3 := by
  induction h with
  | lead hl =>
    have ho := (lead_owing hl).1
    have := ho.owed
    exact ⟨ho, by simp only [List.length_cons, List.length_nil]; omega⟩
  | next _ hn ih =>
    obtain ⟨howed, hhigh, _⟩ := next_owing hn
    obtain ⟨ho, hl⟩ := ih
    refine ⟨⟨by simp [hhigh], by have := ho.owed; omega⟩, ?_⟩
    simp only [List.length_append, List.length_cons, List.length_nil]
    omega

theorem Tail.length_le {v : Bytes} {p : Partial} (h : Tail v p) : v.length ≤ 3 := by
  have := h.owing.2
  omega

/-- Only the first octet of a character can be above `BF`. -/
theorem Tail.shape {v : Bytes} {p : Partial} (h : Tail v p) :
    ∃ b r, v = b :: r ∧ 0xC2 ≤ b ∧ ∀ c ∈ r, c ≤ 0xBF := by
  induction h with
  | @lead b _ hl => exact ⟨b, [], rfl, (lead_owing hl).2, by simp⟩
  | @next v p q c ht hn ih =>
    obtain ⟨b, r, rfl, hb, hr⟩ := ih
    refine ⟨b, r ++ [c], rfl, hb, ?_⟩
    intro d hd
    rcases List.mem_append.mp hd with hd | hd
    · exact hr d hd
    · rw [List.mem_singleton.mp hd]
      exact UInt8.le_trans (next_owing hn).2.2 ht.owing.1.high

theorem Tail.ne_nil {v : Bytes} {p : Partial} (h : Tail v p) : v ≠ [] := by
  obtain ⟨b, r, rfl, _⟩ := h.shape
  simp

theorem Tail.decode {v : Bytes} {p : Partial} (h : Tail v p) :
    Utf8.decode none v = ([], some p) := by
  induction h with
  | lead hl => exact decode_lead hl []
  | next _ hn ih =>
    rw [decode_append, ih, decode_more hn]
    rfl

theorem Tail.left {v : Bytes} {p : Partial} (h : Tail v p) : left v = some p := by
  rw [Decoding.left, h.decode]

/-- Two unfinished characters at the end of one text are the same: an earlier first octet would
make the later one's first octet a later octet. -/
theorem Tail.unique {u u' v v' : Bytes} {p p' : Partial} (h : Tail v p) (h' : Tail v' p')
    (he : u ++ v = u' ++ v') : v = v' := by
  obtain ⟨b, r, hv, hb, hr⟩ := h.shape
  obtain ⟨b', r', hv', hb', hr'⟩ := h'.shape
  have apart {x : UInt8} (hx : 0xC2 ≤ x) (hx' : x ≤ 0xBF) : False := by
    rw [UInt8.le_iff_toNat_le] at hx hx'
    exact absurd (Nat.le_trans hx hx') (by decide)
  rcases List.append_eq_append_iff.mp he with ⟨w, _, hw⟩ | ⟨w, _, hw⟩
  · cases w with
    | nil => simpa using hw
    | cons c w =>
      subst hv hv'
      obtain ⟨_, rfl⟩ := List.cons.inj hw
      exact (apart hb' (hr b' (by simp))).elim
  · cases w with
    | nil => simpa using hw.symm
    | cons c w =>
      subst hv hv'
      obtain ⟨_, rfl⟩ := List.cons.inj hw
      exact (apart hb (hr' b (by simp))).elim

/-- Whatever the reader holds is the end of what it has read. -/
theorem tail_of_left (bytes : Bytes) :
    ∀ p, left bytes = some p → ∃ u v, bytes = u ++ v ∧ Tail v p := by
  induction bytes using List.reverseRecOn with
  | nil => intro p h; cases h
  | append_singleton bytes b ih =>
    intro q h
    have fresh (hl : (begin b).2 = some q) : ∃ u v, bytes ++ [b] = u ++ v ∧ Tail v q := by
      refine ⟨bytes, [b], rfl, .lead ?_⟩
      unfold begin at hl
      split at hl <;> simp_all
    rw [left_snoc] at h
    cases hs : left bytes with
    | none =>
      rw [hs] at h
      exact fresh h
    | some p =>
      rw [hs] at h
      obtain ⟨u, v, rfl, ht⟩ := ih p hs
      cases hn : p.next b with
      | char c => simp [feed, hn] at h
      | refuse => exact fresh (by simpa [feed, hn] using h)
      | more q' =>
        simp only [feed, hn, Option.some.injEq] at h
        subst q'
        exact ⟨u, v ++ [b], by simp, ht.next hn⟩

theorem left_owing {bytes : Bytes} {p : Partial} (h : left bytes = some p) : Owing p := by
  obtain ⟨_, _, _, ht⟩ := tail_of_left bytes p h
  exact ht.owing.1

/-- Nothing before the cut can go on after it. -/
def Cut (u v : Bytes) : Prop :=
  ∀ p, left u = some p → ∃ b r, v = b :: r ∧ p.next b = .refuse

theorem Cut.of_left {u : Bytes} (h : left u = none) (v : Bytes) : Cut u v := by
  intro p hp
  rw [h] at hp
  cases hp

/-- A first octet of several refuses whatever was unfinished before it. -/
theorem Cut.of_tail {v : Bytes} {p : Partial} (h : Tail v p) (u w : Bytes) : Cut u (v ++ w) := by
  intro q hq
  obtain ⟨b, r, rfl, hb, _⟩ := h.shape
  refine ⟨b, r ++ w, rfl, ?_⟩
  have hh := (left_owing hq).high
  have : q.high < b := by
    rw [UInt8.le_iff_toNat_le] at hb hh
    rw [UInt8.lt_iff_toNat_lt]
    exact Nat.lt_of_lt_of_le (Nat.lt_of_le_of_lt hh (by decide)) hb
  simp [Partial.next, this]

theorem Cut.take {u v : Bytes} (h : Cut u v) {n : Nat} (hn : n ≠ 0) : Cut u (v.take n) := by
  intro p hp
  obtain ⟨b, r, rfl, hr⟩ := h p hp
  obtain ⟨n, rfl⟩ := Nat.exists_eq_succ_of_ne_zero hn
  exact ⟨b, r.take n, rfl, hr⟩

theorem Cut.decode {u v : Bytes} (h : Cut u v) :
    Utf8.decode (left u) v = (closing (left u) ++ (Utf8.decode none v).1, left v) := by
  cases hs : left u with
  | none => rfl
  | some p =>
    obtain ⟨b, r, rfl, hr⟩ := h p hs
    simp [left, closing, Utf8.decode, feed, hr]

theorem Cut.left {u v : Bytes} (h : Cut u v) : left (u ++ v) = left v := by
  rw [left_append, h.decode]

/-- Text cut in two reads as its two parts do. -/
theorem Cut.lossy_chars {u v : Bytes} (h : Cut u v) :
    lossyChars (u ++ v) = lossyChars u ++ lossyChars v := by
  have hd : (Utf8.decode none (u ++ v)).1 =
      (Utf8.decode none u).1 ++ (closing (Decoding.left u) ++ (Utf8.decode none v).1) := by
    rw [decode_append]
    exact congrArg (fun d => (Utf8.decode none u).1 ++ d.1) h.decode
  rw [lossy_chars_eq (u ++ v), lossy_chars_eq u, lossy_chars_eq v, h.left, hd]
  simp

theorem Cut.lossy {u v : Bytes} (h : Cut u v) : lossy (u ++ v) = lossy u ++ lossy v := by
  simp [Utf8.lossy, h.lossy_chars]

/-- An octet after which nothing is held has given some text. -/
theorem feed_speaks {p : Option Partial} {b : UInt8} (h : (feed p b).2 = none) :
    (feed p b).1 ≠ [] := by
  cases p with
  | none =>
    simp only [feed, begin] at h ⊢
    cases hl : lead b with
    | char c => simp
    | more q => simp [hl] at h
    | refuse => simp
  | some p =>
    simp only [feed] at h ⊢
    cases hn : p.next b with
    | char c => simp
    | more q => simp [hn] at h
    | refuse => simp

/-- Octets always give some text, if only because the last character is replaced. -/
theorem lossy_chars_ne_nil {bytes : Bytes} (h : bytes ≠ []) : lossyChars bytes ≠ [] := by
  rw [lossy_chars_eq]
  cases hs : left bytes with
  | some p => simp [closing]
  | none =>
    rw [← List.dropLast_concat_getLast h] at hs ⊢
    rw [left_snoc] at hs
    rw [decode_append]
    simpa [decode, closing, left] using fun _ => feed_speaks hs

end PodConsole.Proofs.Decoding
