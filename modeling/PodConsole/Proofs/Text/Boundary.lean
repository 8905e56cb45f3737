import PodConsole.Proofs.Text.Decoding

namespace PodConsole.Proofs.Boundary
open Text Utf8 Decoding

/-- What the verdict has kept of the octets that it has passed: the state after them, and the
place where the last character began. -/
structure Placed (passed : Bytes) (p : Option Partial) (good : Nat) : Prop where
  left : left passed = p
  whole : p = none → good = passed.length
  tail : ∀ q, p = some q → Tail (passed.drop good) q

theorem Placed.char {passed : Bytes} {p : Option Partial} {good : Nat} {b : UInt8} {c : Char}
    (h : Placed passed p good) (hs : step p b = .char c) :
    Placed (passed ++ [b]) none (passed.length + 1) := by
  refine ⟨?_, by simp, by simp⟩
  rw [left_snoc, h.left]
  cases p with
  | none => simp [feed, begin, show lead b = .char c from hs]
  | some q => simp [feed, show q.next b = .char c from hs]

theorem Placed.more {passed : Bytes} {p : Option Partial} {good : Nat} {b : UInt8} {q : Partial}
    (h : Placed passed p good) (hs : step p b = .more q) :
    Placed (passed ++ [b]) (some q) good := by
  cases p with
  | none =>
    have hl : lead b = .more q := hs
    refine ⟨by rw [left_snoc, h.left]; simp [feed, begin, hl], by simp, ?_⟩
    intro r hr
    obtain rfl := Option.some.inj hr
    rw [h.whole rfl, List.drop_left]
    exact .lead hl
  | some p =>
    have hn : p.next b = .more q := hs
    refine ⟨by rw [left_snoc, h.left]; simp [feed, hn], by simp, ?_⟩
    intro r hr
    obtain rfl := Option.some.inj hr
    have ht := h.tail p rfl
    have hle : good ≤ passed.length := by
      have := List.length_pos_iff.mpr ht.ne_nil
      rw [List.length_drop] at this
      omega
    rw [List.drop_append_of_le_length hle]
    exact ht.next hn

/-- What a verdict tells of the octets. -/
def Tells (bytes : Bytes) : Verdict → Prop
  | .whole => left bytes = none
  | .short n => ∃ p, Tail (bytes.drop n) p
  | .broken => True

theorem verdict_from_tells (rest : Bytes) : ∀ passed p good, Placed passed p good →
    Tells (passed ++ rest) (verdictFrom p good passed.length rest) := by
  induction rest with
  | nil =>
    intro passed p good h
    rw [List.append_nil]
    cases p with
    | none => exact h.left
    | some q => exact ⟨q, h.tail q rfl⟩
  | cons b rest ih =>
    intro passed p good h
    rw [List.append_cons]
    unfold verdictFrom
    cases hs : step p b with
    | char c => simpa using ih _ _ _ (h.char hs)
    | more q => simpa using ih _ _ _ (h.more hs)
    | refuse => trivial

theorem verdict_tells (bytes : Bytes) : Tells bytes (verdict bytes) :=
  verdict_from_tells bytes [] none 0 ⟨rfl, fun _ => rfl, by simp⟩

/-- While a character is only begun, the verdict stays at its first octet. -/
theorem verdict_from_tail {v : Bytes} {p : Partial} (h : Tail v p) (w : Bytes) (good seen : Nat) :
    verdictFrom none good seen (v ++ w) = verdictFrom (some p) good (seen + v.length) w := by
  induction h generalizing w with
  | lead hl => simp [verdictFrom, step, hl]
  | next _ hn ih =>
    rw [List.append_assoc, ih]
    simp [verdictFrom, step, hn, Nat.add_assoc]

theorem unfinished_iff (v : Bytes) : isUnfinished v = true ↔ ∃ p, Tail v p := by
  simp only [isUnfinished, decide_eq_true_eq]
  constructor
  · intro h
    have ht := verdict_tells v
    rw [h] at ht
    exact ht
  · rintro ⟨p, ht⟩
    have := verdict_from_tail ht [] 0 0
    rw [List.append_nil] at this
    rw [verdict, this]
    rfl

/-- No part of octets that leave nothing unfinished is unfinished at their end. -/
theorem no_tail {u v : Bytes} (h : left (u ++ v) = none) (p : Partial) : ¬ Tail v p := by
  intro ht
  have hc : Cut u v := by simpa using Cut.of_tail ht u []
  rw [hc.left, ht.left] at h
  cases h

theorem boundary_of_whole {bytes : Bytes} (h : left bytes = none) :
    boundary bytes = bytes.length := by
  have none_at (n : Nat) (p : Partial) : ¬ Tail (bytes.drop n) p :=
    no_tail (u := bytes.take n) (by rw [List.take_append_drop]; exact h) p
  have hv := verdict_tells bytes
  unfold boundary
  split
  · rfl
  · rename_i n hn
    rw [hn] at hv
    obtain ⟨p, hp⟩ := hv
    exact (none_at n p hp).elim
  · have hf : (List.range' (bytes.length - longestUnfinished)
        (bytes.length - (bytes.length - longestUnfinished))).find?
          (fun i => isUnfinished (bytes.drop i)) = none := by
      apply List.find?_eq_none.mpr
      intro i _ hi
      obtain ⟨p, hp⟩ := (unfinished_iff _).mp hi
      exact none_at i p hp
    simp only [hf, Option.getD_none]

theorem boundary_of_tail {u v : Bytes} {p : Partial} (h : Tail v p) :
    boundary (u ++ v) = u.length := by
  have place {n : Nat} {q : Partial} (hq : Tail ((u ++ v).drop n) q) : n = u.length := by
    have hv := hq.unique h (List.take_append_drop n (u ++ v))
    have hl := congrArg List.length hv
    have hpos := List.length_pos_iff.mpr h.ne_nil
    simp only [List.length_drop, List.length_append] at hl
    omega
  have hv := verdict_tells (u ++ v)
  unfold boundary
  split
  · rename_i hw
    rw [hw] at hv
    exact (no_tail hv p h).elim
  · rename_i n hn
    rw [hn] at hv
    obtain ⟨q, hq⟩ := hv
    exact place hq
  · -- the search covers every place that a character of at most four octets can have begun at
    cases hf : (List.range' ((u ++ v).length - longestUnfinished)
        ((u ++ v).length - ((u ++ v).length - longestUnfinished))).find?
          (fun i => isUnfinished ((u ++ v).drop i)) with
    | some i =>
      obtain ⟨q, hq⟩ := (unfinished_iff _).mp (List.find?_some (p := fun i => isUnfinished _) hf)
      simp only [hf, Option.getD_some]
      exact place hq
    | none =>
      have hmem : u.length ∈ List.range' ((u ++ v).length - longestUnfinished)
          ((u ++ v).length - ((u ++ v).length - longestUnfinished)) := by
        have := h.length_le
        have := List.length_pos_iff.mpr h.ne_nil
        simp only [List.mem_range'_1, List.length_append, longestUnfinished]
        omega
      have hn := List.find?_eq_none.mp hf _ hmem
      rw [List.drop_left] at hn
      exact (hn ((unfinished_iff v).mpr ⟨p, h⟩)).elim

/-- A buffer is cut before its unfinished character, which is all of it that the reader holds. -/
theorem boundary_cases (bytes : Bytes) :
    (left bytes = none ∧ boundary bytes = bytes.length) ∨
    ∃ u v p, bytes = u ++ v ∧ Tail v p ∧ boundary bytes = u.length := by
  cases hs : left bytes with
  | none => exact .inl ⟨rfl, boundary_of_whole hs⟩
  | some p =>
    obtain ⟨u, v, rfl, ht⟩ := tail_of_left bytes p hs
    exact .inr ⟨u, v, p, rfl, ht, boundary_of_tail ht⟩

theorem boundary_le (bytes : Bytes) : boundary bytes ≤ bytes.length := by
  rcases boundary_cases bytes with ⟨_, hb⟩ | ⟨u, v, p, rfl, _, hb⟩
  · exact Nat.le_of_eq hb
  · rw [hb, List.length_append]
    omega

theorem boundary_rest_length_le (bytes : Bytes) : (bytes.drop (boundary bytes)).length ≤ 3 := by
  rcases boundary_cases bytes with ⟨_, hb⟩ | ⟨u, v, p, rfl, ht, hb⟩
  · simp [hb]
  · rw [hb, List.drop_left]
    exact ht.length_le

/-- Whatever comes after a buffer may be read with its unfinished character alone. -/
theorem boundary_cut (bytes w : Bytes) :
    Cut (bytes.take (boundary bytes)) (bytes.drop (boundary bytes) ++ w) := by
  rcases boundary_cases bytes with ⟨hs, hb⟩ | ⟨u, v, p, rfl, ht, hb⟩
  · rw [hb, List.take_length]
    exact .of_left hs _
  · rw [hb, List.drop_left]
    exact .of_tail ht _ w

/-- Ahead of a cut nothing is held back. -/
theorem boundary_append {u w : Bytes} (h : Cut u w) :
    boundary (u ++ w) = u.length + boundary w := by
  have hl := h.left
  rcases boundary_cases w with ⟨hs, hb⟩ | ⟨w, v, p, rfl, ht, hb⟩
  · rw [boundary_of_whole (hl.trans hs), hb, List.length_append]
  · rw [← List.append_assoc, boundary_of_tail ht, hb, List.length_append]

end PodConsole.Proofs.Boundary
