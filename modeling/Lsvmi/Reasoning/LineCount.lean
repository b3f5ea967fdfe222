import Lsvmi.Reasoning.Rows

/-!
# Counting lines

Text that is written record by record, each of them ended by the same tail and a newline, has one
non-empty line for each record unless there are newlines inside of the records.
-/

namespace Lsvmi.Reasoning

open List

variable {α : Type*} [DecidableEq α]

theorem lines_append_nl (nl : α) (text rest : List α) :
    lines nl (text ++ nl :: rest) = lines nl (text ++ [nl]) ++ lines nl rest := by
  induction text with
  | nil => simp [lines]
  | cons c text ih =>
    by_cases hc : c = nl
    · simp [lines, hc, ih]
    · have hne : text ++ [nl] ≠ [] := by simp
      simp [lines, hc, ih, lines_of_ne_nil hne]

def lineCount (nl : α) (text : List α) : Nat := (lines nl text).countP (· ≠ [])

theorem lineCount_append_nl (nl : α) (text rest : List α) :
    lineCount nl (text ++ nl :: rest) = lineCount nl (text ++ [nl]) + lineCount nl rest := by
  rw [lineCount, lines_append_nl, countP_append, lineCount, lineCount]

theorem lineCount_one {nl : α} {line : List α} (hne : line ≠ []) (hline : nl ∉ line) :
    lineCount nl (line ++ [nl]) = 1 := by
  have hlines : lines nl (line ++ [nl]) = [line] := by
    rw [lines_of_ne_nil (by simp), firstLine_append hline, afterLine_append hline, firstLine_nl,
      afterLine_nl, List.append_nil, lines]
  rw [lineCount, hlines]
  simp [hne]

theorem lineCount_pos {nl c : α} (hc : c ≠ nl) {text : List α} (hmem : c ∈ text) :
    0 < lineCount nl text := by
  induction text with
  | nil => cases hmem
  | cons d text ih =>
    rw [lineCount, lines_of_ne_nil (cons_ne_nil d text)]
    by_cases hd : d = nl
    · have hrest : c ∈ text := (mem_cons.mp hmem).resolve_left fun heq => hc (heq.trans hd)
      rw [hd, firstLine_nl, afterLine_nl]
      simpa [lineCount] using ih hrest
    · simp [firstLine, hd]

/-- A record is one line exactly when there is no newline in it.  The end of a record is fixed text. -/
theorem lineCount_record {nl : α} {tail : List α} (htail : nl ∉ tail) (hne : tail ≠ [])
    {body : List α} (hhead : body.head? ≠ some nl) :
    0 < lineCount nl (body ++ tail ++ [nl]) ∧
      (lineCount nl (body ++ tail ++ [nl]) = 1 ↔ nl ∉ body) := by
  by_cases hmem : nl ∈ body
  · obtain ⟨part, rest, rfl, hpart⟩ := eq_append_cons_of_mem hmem
    have hpartNe : part ≠ [] := by
      rintro rfl
      exact hhead rfl
    obtain ⟨c, hc⟩ := exists_mem_of_ne_nil tail hne
    have hpos : 0 < lineCount nl (rest ++ tail ++ [nl]) :=
      lineCount_pos (ne_of_mem_of_not_mem hc htail) (mem_append_left _ (mem_append_right _ hc))
    have hsplit : part ++ nl :: rest ++ tail ++ [nl] = part ++ nl :: (rest ++ tail ++ [nl]) := by simp
    rw [hsplit, lineCount_append_nl, lineCount_one hpartNe hpart]
    exact ⟨by omega, by omega, fun h => absurd hmem h⟩
  · rw [lineCount_one (by simp [hne]) (by simp [hmem, htail])]
    exact ⟨Nat.one_pos, fun _ => hmem, fun _ => rfl⟩

theorem lineCount_records {nl : α} {tail : List α} (htail : nl ∉ tail) (hne : tail ≠ [])
    {bodies : List (List α)} (hhead : ∀ body ∈ bodies, body.head? ≠ some nl) (rest : List α) :
    bodies.length + lineCount nl rest ≤ lineCount nl (bodies.flatMap (· ++ tail ++ [nl]) ++ rest) ∧
      (lineCount nl (bodies.flatMap (· ++ tail ++ [nl]) ++ rest) =
        bodies.length + lineCount nl rest ↔ ∀ body ∈ bodies, nl ∉ body) := by
  induction bodies with
  | nil => simp
  | cons body bodies ih =>
    obtain ⟨hpos, hone⟩ := lineCount_record htail hne (hhead body mem_cons_self)
    obtain ⟨hle, heq⟩ := ih fun b hb => hhead b (mem_cons_of_mem body hb)
    have hsplit : (body :: bodies).flatMap (· ++ tail ++ [nl]) ++ rest =
        body ++ tail ++ nl :: (bodies.flatMap (· ++ tail ++ [nl]) ++ rest) := by simp
    rw [hsplit, lineCount_append_nl, length_cons, forall_mem_cons, ← hone, ← heq]
    omega

end Lsvmi.Reasoning
