import PodConsole.Proofs.Text.Beginnings

namespace PodConsole.Proofs.Cuts
open Text Utf8 Decoding Boundary Encoding Beginnings

variable {bytes u v : Bytes} {n : Nat}

/-- The octets before the place are read as if nothing came after them, and those after it as if
nothing came before. -/
def Stable (bytes : Bytes) (n : Nat) : Prop :=
  ∀ more, lossy (bytes ++ more) = lossy (bytes.take n) ++ lossy (bytes.drop n ++ more)

theorem boundary_stable (bytes : Bytes) : Stable bytes (boundary bytes) := by
  intro more
  have hcut := (boundary_cut bytes more).lossy
  rwa [← List.append_assoc, List.take_append_drop] at hcut

theorem Stable.chars (h : Stable bytes n) (more : Bytes) :
    lossyChars (bytes ++ more) =
      lossyChars (bytes.take n) ++ lossyChars (bytes.drop n ++ more) := by
  simpa [lossy] using congrArg String.toList (h more)

theorem lossy_chars_encode (c : Char) : lossyChars (String.utf8EncodeChar c) = [c] := by
  have hc := decode_chars [c]
  rw [List.flatMap_singleton] at hc
  rw [lossy_chars_eq, left, hc]
  rfl

/-- Two parts that are not empty read as two characters at least. -/
theorem two_parts (hu : u ≠ []) (hv : v ≠ []) (c : Char) :
    lossyChars u ++ lossyChars v ≠ [c] := by
  intro h
  have hlength := congrArg List.length h
  have hpos := List.length_pos_iff.mpr (lossy_chars_ne_nil hu)
  have hpos' := List.length_pos_iff.mpr (lossy_chars_ne_nil hv)
  rw [List.length_append, List.length_singleton] at hlength
  omega

/-- A character that can still be finished cannot be cut: finished, it is one character. -/
theorem begins_uncut (hv : Begins v) (hn : u.length < n) : ¬ Stable (u ++ v) n := by
  obtain ⟨p, ht⟩ := hv.tail
  obtain ⟨hsome, c, ⟨w, hw⟩, hne⟩ := hv
  obtain ⟨k, rfl⟩ := Nat.exists_eq_add_of_lt hn
  have hrest : v.drop (k + 1) ++ w ≠ [] := by
    intro he
    rw [(List.append_eq_nil_iff.mp he).2, List.append_nil] at hw
    exact hne hw
  have hcut : Cut u (v.take (k + 1)) := by
    have hcut := Cut.of_tail ht u []
    rw [List.append_nil] at hcut
    exact hcut.take (Nat.succ_ne_zero k)
  intro hstable
  have hparts : lossyChars u ++ [c] =
      lossyChars u ++ (lossyChars (v.take (k + 1)) ++ lossyChars (v.drop (k + 1) ++ w)) := by
    calc lossyChars u ++ [c]
        = lossyChars (u ++ v ++ w) := by
          rw [List.append_assoc, (Cut.of_tail ht u w).lossy_chars, hw, lossy_chars_encode]
      _ = lossyChars (u ++ v.take (k + 1)) ++ lossyChars (v.drop (k + 1) ++ w) := by
          rw [hstable.chars, Nat.add_assoc, List.take_length_add_append,
            List.drop_length_add_append]
      _ = lossyChars u ++ (lossyChars (v.take (k + 1)) ++ lossyChars (v.drop (k + 1) ++ w)) := by
          rw [hcut.lossy_chars, List.append_assoc]
  exact two_parts (by simp [hsome]) hrest c (List.append_cancel_left hparts).symm

theorem boundary_greatest (hn : n ≤ bytes.length) (hstable : Stable bytes n) :
    n ≤ boundary bytes := by
  rcases boundary_cases bytes with ⟨-, hb⟩ | ⟨u, v, p, rfl, ht, hb⟩
  · rwa [hb]
  · by_contra hlt
    rw [hb, Nat.not_le] at hlt
    exact begins_uncut (tail_begins ht) hlt hstable

/-- What is held back begins a character, and nothing else at the end of the octets does. -/
theorem begins_suffix_iff (bytes v : Bytes) :
    v <:+ bytes ∧ Begins v ↔ v = bytes.drop (boundary bytes) ∧ v ≠ [] := by
  rcases boundary_cases bytes with ⟨hl, hb⟩ | ⟨u, w, p, rfl, ht, hb⟩
  · rw [hb, List.drop_length]
    refine ⟨?_, fun h => (h.2 h.1).elim⟩
    rintro ⟨⟨u, rfl⟩, hv⟩
    obtain ⟨p, ht⟩ := hv.tail
    exact (no_tail hl p ht).elim
  · rw [hb, List.drop_left]
    constructor
    · rintro ⟨⟨u', he⟩, hv⟩
      obtain ⟨q, hq⟩ := hv.tail
      exact ⟨hq.unique ht he, hq.ne_nil⟩
    · rintro ⟨rfl, -⟩
      exact ⟨List.suffix_append u v, tail_begins ht⟩

theorem held_back (h : bytes.drop (boundary bytes) ≠ []) : Begins (bytes.drop (boundary bytes)) :=
  ((begins_suffix_iff bytes _).mpr ⟨rfl, h⟩).2

/-- Octets further ahead than a character is long do not matter. -/
theorem held_back_last (before : Bytes) (hlong : 3 ≤ bytes.length) :
    (before ++ bytes).drop (boundary (before ++ bytes)) = bytes.drop (boundary bytes) := by
  have hlate : bytes <:+ before ++ bytes := List.suffix_append before bytes
  have hsuffix := List.drop_suffix (boundary (before ++ bytes)) (before ++ bytes)
  by_cases hall : (before ++ bytes).drop (boundary (before ++ bytes)) = []
  · by_contra hne
    have hsome : bytes.drop (boundary bytes) ≠ [] := fun he => hne (hall.trans he.symm)
    have hfound := (begins_suffix_iff (before ++ bytes) _).mp
      ⟨(List.drop_suffix _ bytes).trans hlate, held_back hsome⟩
    exact hne hfound.1.symm
  · have hshort := Nat.le_trans (boundary_rest_length_le (before ++ bytes)) hlong
    have hends := List.suffix_of_suffix_length_le hsuffix hlate hshort
    exact ((begins_suffix_iff bytes _).mp ⟨hends, held_back hall⟩).1

/-- What the search in the last octets finds. -/
def searched (bytes : Bytes) : Nat :=
  let first := bytes.length - longestUnfinished
  ((List.range' first (bytes.length - first)).find? fun i => isUnfinished (bytes.drop i)).getD
    bytes.length

theorem unfinished_begins (v : Bytes) : isUnfinished v = true ↔ Begins v :=
  (unfinished_iff v).trans (begins_iff v).symm

/-- The search finds the boundary, also where the verdict tells it. -/
theorem searched_eq (bytes : Bytes) : searched bytes = boundary bytes := by
  have hle := boundary_le bytes
  have hshort := boundary_rest_length_le bytes
  rw [List.length_drop] at hshort
  unfold searched
  dsimp only
  cases hfind : (List.range' (bytes.length - longestUnfinished)
      (bytes.length - (bytes.length - longestUnfinished))).find?
        (fun i => isUnfinished (bytes.drop i)) with
  | some i =>
    have hbegins := (unfinished_begins _).mp (List.find?_some (p := fun i => isUnfinished _) hfind)
    have hdrop := ((begins_suffix_iff bytes _).mp ⟨List.drop_suffix i bytes, hbegins⟩).1
    have hlength := congrArg List.length hdrop
    have hpos := List.length_pos_iff.mpr hbegins.1
    rw [List.length_drop] at hlength hpos
    rw [List.length_drop] at hlength
    rw [Option.getD_some]
    omega
  | none =>
    rw [Option.getD_none]
    by_contra hne
    have hsome : bytes.drop (boundary bytes) ≠ [] := by
      intro he
      have hlength := List.drop_eq_nil_iff.mp he
      omega
    have hmem : boundary bytes ∈ List.range' (bytes.length - longestUnfinished)
        (bytes.length - (bytes.length - longestUnfinished)) := by
      rw [List.mem_range'_1, longestUnfinished]
      omega
    exact List.find?_eq_none.mp hfind _ hmem ((unfinished_begins _).mpr (held_back hsome))

/-- The boundary of octets is the greatest place where they can be cut so that, whatever follows,
all is read as the part before it and the part after it. What it holds back is nothing, or begins a
character and has three octets at most; no other end of the octets begins one, and octets further
ahead do not matter. A verdict on all octets and a search in the last three tell the same place. -/
theorem boundary_is_greatest_stable_cut (bytes : Bytes) :
    let k := boundary bytes
    k ≤ bytes.length ∧ Stable bytes k ∧ (∀ n, n ≤ bytes.length → Stable bytes n → n ≤ k) ∧
    (bytes.drop k = [] ∨ Begins (bytes.drop k)) ∧ (bytes.drop k).length ≤ 3 ∧
    (∀ v, v <:+ bytes → Begins v → v = bytes.drop k) ∧
    (∀ before : Bytes, 3 ≤ bytes.length →
      boundary (before ++ bytes) = before.length + k) ∧
    searched bytes = k ∧ (verdict bytes = .whole → searched bytes = bytes.length) ∧
    ∀ n, verdict bytes = .short n → searched bytes = n := by
  intro k
  have hsearched : searched bytes = k := searched_eq bytes
  refine ⟨boundary_le bytes, boundary_stable bytes, fun n hn => boundary_greatest hn, ?_,
    boundary_rest_length_le bytes, fun v hv hb => ((begins_suffix_iff bytes v).mp ⟨hv, hb⟩).1, ?_,
    hsearched, ?_, ?_⟩
  · by_cases hsome : bytes.drop k = []
    · exact .inl hsome
    · exact .inr (held_back hsome)
  · intro before hlong
    have hlength := congrArg List.length (held_back_last before hlong)
    have hle := boundary_le bytes
    have hle' := boundary_le (before ++ bytes)
    rw [List.length_drop, List.length_drop] at hlength
    rw [List.length_append] at hlength hle'
    omega
  · intro hwhole
    rw [hsearched]
    simp only [k, boundary, hwhole]
  · intro n hshort
    rw [hsearched]
    simp only [k, boundary, hshort]

end PodConsole.Proofs.Cuts
