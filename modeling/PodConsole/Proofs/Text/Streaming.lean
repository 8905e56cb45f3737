import PodConsole.Proofs.Text.Boundary
import PodConsole.Proofs.Text.Encoding
import PodConsole.Text.Decoder

namespace PodConsole.Proofs.Streaming
open Text Utf8 Decoding Boundary Encoding

/-- The text of all that can no longer change. -/
def ready (bytes : Bytes) : String :=
  lossy (bytes.take (boundary bytes))

/-- The unfinished character at the end. -/
def rest (bytes : Bytes) : Bytes :=
  bytes.drop (boundary bytes)

theorem lossy_nil : lossy [] = "" := rfl

theorem lossy_ne_empty {bytes : Bytes} (h : bytes ≠ []) : lossy bytes ≠ "" := by
  intro he
  have hl := congrArg String.toList he
  rw [lossy, String.toList_ofList] at hl
  exact lossy_chars_ne_nil h hl

theorem ready_rest (bytes : Bytes) : ready bytes ++ lossy (rest bytes) = lossy bytes := by
  have hc : Cut (bytes.take (boundary bytes)) (rest bytes) := by
    simpa [rest] using boundary_cut bytes []
  rw [ready, ← hc.lossy, rest, List.take_append_drop]

/-- A later piece is read with the rest of the octets before it alone. -/
theorem boundary_push (bytes piece : Bytes) :
    boundary (bytes ++ piece) = boundary bytes + boundary (rest bytes ++ piece) := by
  have hb := boundary_append (boundary_cut bytes piece)
  rw [← List.append_assoc, List.take_append_drop, List.length_take,
    Nat.min_eq_left (boundary_le bytes)] at hb
  exact hb

theorem rest_push (bytes piece : Bytes) : rest (bytes ++ piece) = rest (rest bytes ++ piece) := by
  calc rest (bytes ++ piece)
      = ((bytes ++ piece).drop (boundary bytes)).drop (boundary (rest bytes ++ piece)) := by
        rw [rest, boundary_push, List.drop_drop]
    _ = rest (rest bytes ++ piece) := by
        rw [List.drop_append_of_le_length (boundary_le bytes)]
        rfl

theorem ready_push (bytes piece : Bytes) :
    ready (bytes ++ piece) = ready bytes ++ ready (rest bytes ++ piece) := by
  have ht : (bytes ++ piece).take (boundary (bytes ++ piece)) =
      bytes.take (boundary bytes) ++
        (rest bytes ++ piece).take (boundary (rest bytes ++ piece)) := by
    rw [boundary_push, List.take_add, List.drop_append_of_le_length (boundary_le bytes),
      List.take_append_of_le_length (boundary_le bytes)]
    rfl
  rw [ready, ht]
  cases hn : boundary (rest bytes ++ piece) with
  | zero => simp [ready, hn, lossy_nil]
  | succ n =>
    have hc := (boundary_cut bytes piece).take (Nat.succ_ne_zero n)
    rw [ready, ready, hn]
    exact hc.lossy

/-- The decoder keeps of what it was given the unfinished character alone. -/
def Stands (d : Decoder) (bytes : Bytes) : Prop :=
  d.pending = rest bytes

theorem stands_new : Stands {} [] := rfl

theorem push_eq (d : Decoder) (piece : Bytes) :
    (d.push piece).2.pending = rest (d.pending ++ piece) ∧
      (d.push piece).1.getD "" = ready (d.pending ++ piece) := by
  unfold Decoder.push rest ready
  dsimp only
  split
  · rename_i h
    simp [h, lossy_nil]
  · exact ⟨rfl, rfl⟩

/-- No text is not the same as an empty one. -/
theorem push_ne_empty (d : Decoder) (piece : Bytes) :
    ∀ text ∈ (d.push piece).1.toList, text ≠ "" := by
  intro text hm
  unfold Decoder.push at hm
  dsimp only at hm
  split at hm
  · simp at hm
  · rename_i hn
    simp only [Option.toList_some, List.mem_singleton] at hm
    subst hm
    apply lossy_ne_empty
    intro he
    have hl := congrArg List.length he
    have := boundary_le (d.pending ++ piece)
    simp only [List.length_take, List.length_nil] at hl
    exact hn (by omega)

theorem join_to_list (text : Option String) : String.join text.toList = text.getD "" := by
  cases text <;> simp

theorem Stands.push {d : Decoder} {bytes : Bytes} (h : Stands d bytes) (piece : Bytes) :
    Stands (d.push piece).2 (bytes ++ piece) ∧
      ready bytes ++ (d.push piece).1.getD "" = ready (bytes ++ piece) := by
  obtain ⟨hp, ht⟩ := push_eq d piece
  rw [h] at hp ht
  exact ⟨hp.trans (rest_push bytes piece).symm, by rw [ht, ← ready_push]⟩

theorem Stands.push_all {d : Decoder} {bytes : Bytes} (h : Stands d bytes) (pieces : List Bytes) :
    Stands (d.pushAll pieces).2 (bytes ++ pieces.flatten) ∧
      ready bytes ++ String.join (d.pushAll pieces).1 = ready (bytes ++ pieces.flatten) := by
  induction pieces generalizing d bytes with
  | nil => simpa [Decoder.pushAll] using h
  | cons piece pieces ih =>
    obtain ⟨hs, ht⟩ := h.push piece
    obtain ⟨hs', ht'⟩ := ih hs
    rw [List.flatten_cons, ← List.append_assoc]
    refine ⟨hs', ?_⟩
    rw [← ht', ← ht, Decoder.pushAll]
    simp only [String.join_append, join_to_list, String.append_assoc]

theorem push_all_ne_empty (d : Decoder) (pieces : List Bytes) :
    ∀ text ∈ (d.pushAll pieces).1, text ≠ "" := by
  induction pieces generalizing d with
  | nil => simp [Decoder.pushAll]
  | cons piece pieces ih =>
    intro text hm
    rcases List.mem_append.mp hm with hm | hm
    · exact push_ne_empty d piece text hm
    · exact ih _ text hm

theorem finish_eq (d : Decoder) :
    d.finish.1.getD "" = lossy d.pending ∧ d.finish.2.pending = [] := by
  unfold Decoder.finish
  split
  · rename_i h
    rw [List.isEmpty_iff.mp h]
    exact ⟨lossy_nil.symm, rfl⟩
  · exact ⟨rfl, rfl⟩

theorem finish_ne_empty (d : Decoder) : ∀ text ∈ d.finish.1.toList, text ≠ "" := by
  intro text hm
  unfold Decoder.finish at hm
  split at hm
  · simp at hm
  · rename_i h
    simp only [Option.toList_some, List.mem_singleton] at hm
    subst hm
    exact lossy_ne_empty fun he => h (by simp [he])

/-- All the text, up to the end. -/
theorem Stands.finish {d : Decoder} {bytes : Bytes} (h : Stands d bytes) :
    ready bytes ++ d.finish.1.getD "" = lossy bytes := by
  rw [(finish_eq d).1, h, ready_rest]

/-- After any pieces the text so far is that of all octets up to the boundary, and the octets after
the boundary are kept; the end gives the text of all octets. So the pieces do not matter, no text
is empty, no more than three octets are kept, and nothing well formed is replaced. -/
theorem stream_reads_as_whole (pieces : List Bytes) :
    let total := pieces.flatten
    let stream := ({} : Decoder).pushAll pieces
    let ending := stream.2.finish
    String.join stream.1 = lossy (total.take (boundary total)) ∧
    stream.2.pending = total.drop (boundary total) ∧
    String.join (stream.1 ++ ending.1.toList) = lossy total ∧
    ending.2.pending = [] ∧
    (∀ text ∈ stream.1 ++ ending.1.toList, text ≠ "") ∧
    stream.2.pending.length ≤ 3 ∧
    (∀ others : List Bytes, others.flatten = total →
      String.join (({} : Decoder).pushAll others).1 = String.join stream.1 ∧
      (({} : Decoder).pushAll others).2.pending = stream.2.pending) ∧
    (∀ text : String, encode text = total →
      String.join (stream.1 ++ ending.1.toList) = text) := by
  intro total stream ending
  have reads (others : List Bytes) :
      (({} : Decoder).pushAll others).2.pending = rest others.flatten ∧
      String.join (({} : Decoder).pushAll others).1 = ready others.flatten := by
    obtain ⟨hs, ht⟩ := stands_new.push_all others
    rw [List.nil_append] at hs ht
    refine ⟨hs, ?_⟩
    rw [← ht]
    exact String.empty_append.symm
  obtain ⟨hp, ht⟩ := reads pieces
  have hall : String.join (stream.1 ++ ending.1.toList) = lossy total := by
    rw [String.join_append, join_to_list, ht]
    exact Stands.finish hp
  refine ⟨ht, hp, hall, (finish_eq _).2, ?_, ?_, ?_, ?_⟩
  · intro text hm
    rcases List.mem_append.mp hm with hm | hm
    · exact push_all_ne_empty _ _ text hm
    · exact finish_ne_empty _ text hm
  · rw [hp]
    exact boundary_rest_length_le total
  · intro others he
    obtain ⟨hp', ht'⟩ := reads others
    rw [hp', ht', he, hp, ht]
    exact ⟨rfl, rfl⟩
  · intro text he
    rw [hall, ← he, lossy_encode]

end PodConsole.Proofs.Streaming
