import LitestreamSoak.Reporting.Messages

/-!
# Worker — the output of a restore

`restoreOutput` takes the output of a restore as it is written, in pieces of any size. It keeps the
last error line by line, so that the error survives when the output itself is cut.
-/

namespace LitestreamSoak.Worker.RestoreOutput

open Lib Reporting List

/-! ## §1 — the error that is kept -/

def syncDiagnosticOutputLimit : Nat := 64 * 1024

/-- The error after one more line of output. A line that would bring the two over the limit starts
the error anew. -/
def keepError (finalError line : Text) : Text :=
  let final := restoreErrorOutput line
  if final = [] then finalError
  else if (Utf8.encode finalError).length + (Utf8.encode line).length + 1 ≤
      syncDiagnosticOutputLimit then
    restoreErrorOutput (finalError ++ '\n' :: line)
  else final

/-- No line starts the error anew for the limit. -/
def WithinLimit : Text → List Text → Prop
  | _, [] => True
  | finalError, line :: lines =>
    (restoreErrorOutput line ≠ [] → (Utf8.encode finalError).length +
      (Utf8.encode line).length + 1 ≤
      syncDiagnosticOutputLimit) ∧ WithinLimit (keepError finalError line) lines

/-! ## §2 — an error read again -/

/-- The loop of `RestoreErrorOutput`, which the error is read off. -/
def scan (output : Text) : ErrorBlock := (output.splitOn '\n').foldl ErrorBlock.add {}

theorem scan_append (x y : Text) :
    scan (x ++ '\n' :: y) = (y.splitOn '\n').foldl ErrorBlock.add (scan x) := by
  rw [scan, splitOn_append_cons_self, foldl_append, scan]

structure Settled (block : ErrorBlock) : Prop where
  again : block.lines.foldl ErrorBlock.add {} = block
  single : ∀ line ∈ block.lines, '\n' ∉ line

theorem not_mem_trimSpace {raw : Text} (h : '\n' ∉ raw) : '\n' ∉ trimSpace raw := by
  grind [dropWhile_suffix, rdropWhile_prefix, trimSpace]

def continuation (raw : Text) : Bool := hasPrefix raw [' '] || hasPrefix raw ['\t']

theorem continuation_trimSpace (raw : Text) : continuation (trimSpace raw) = false := by
  have hhead := (trimSpace_eq_self_iff.mp (trimSpace_trimSpace raw)).1
  cases hline : trimSpace raw with
  | nil => rfl
  | cons c rest =>
    have hc := hhead c (by rw [hline]; rfl)
    have hspace : ' ' ≠ c := by
      rintro rfl
      cases hc
    have htab : '\t' ≠ c := by
      rintro rfl
      cases hc
    simp [continuation, hasPrefix, isPrefixOf, hspace, htab]

theorem trimSpace_indent (raw : Text) : trimSpace (text "  " ++ trimSpace raw) = trimSpace raw :=
  show trimSpace (trimSpace raw) = _ from trimSpace_trimSpace raw

def skipped (line : Text) : Bool :=
  line = [] || containsAny (toLower line) ["level=debug", "level=info", "level=warn"]

def startsError (line : Text) : Bool :=
  hasPrefix (toLower line) (text "error:") || containsAny (toLower line) ["level=error"]

theorem add_eq (block : ErrorBlock) (raw : Text) :
    block.add raw =
      if skipped (trimSpace raw) then block
      else if startsError (trimSpace raw) || (!block.finalBlock && !continuation raw) then
        ⟨[trimSpace raw], block.finalBlock || startsError (trimSpace raw)⟩
      else
        ⟨block.lines ++ [if continuation raw && block.lines ≠ [] then text "  " ++ trimSpace raw
          else trimSpace raw], block.finalBlock⟩ := by
  by_cases hskip : skipped (trimSpace raw) = true
  · rw [if_pos hskip]
    simp only [skipped, Bool.or_eq_true, decide_eq_true_eq] at hskip
    unfold ErrorBlock.add
    rcases hskip with hblank | hlevel
    · exact if_pos hblank
    · simp only [hlevel, if_true, ite_self]
  · rw [if_neg hskip]
    simp only [skipped, Bool.or_eq_true, decide_eq_true_eq, not_or] at hskip
    unfold ErrorBlock.add
    simp only [if_neg hskip.1, if_neg hskip.2]
    split_ifs with hbegin <;> simp_all [startsError, continuation]

theorem Settled.add {block : ErrorBlock} (h : Settled block) {raw : Text} (hraw : '\n' ∉ raw) :
    Settled (block.add raw) := by
  have hline := not_mem_trimSpace hraw
  have hplain := continuation_trimSpace raw
  rw [add_eq]
  by_cases hskip : skipped (trimSpace raw) = true
  · rw [if_pos hskip]
    exact h
  rw [if_neg hskip]
  by_cases hbegin : (startsError (trimSpace raw) || (!block.finalBlock && !continuation raw)) = true
  · -- the line begins a block, also when it is all there is
    rw [if_pos hbegin]
    refine ⟨?_, by simpa using hline⟩
    grind [add_eq, trimSpace_trimSpace]
  · rw [if_neg hbegin]
    have hsingle : ∀ stored : Text, '\n' ∉ stored →
        ∀ line ∈ block.lines ++ [stored], '\n' ∉ line := by
      intro stored hstored line hmem
      rcases mem_append.mp hmem with hold | hnew
      · exact h.single line hold
      · exact mem_singleton.mp hnew ▸ hstored
    -- read again, the stored line is added in the form it has
    split_ifs with hindent
    · refine ⟨?_, hsingle _ ?_⟩
      · have hcontinuation : continuation (text "  " ++ trimSpace raw) = true := rfl
        grind [Settled.again, add_eq, trimSpace_indent]
      · rw [mem_append, not_or]
        exact ⟨by decide, hline⟩
    · refine ⟨?_, hsingle _ hline⟩
      grind [Settled.again, add_eq, trimSpace_trimSpace]

theorem not_mem_of_mem_splitOn {c : Char} {s line : Text} (h : line ∈ s.splitOn c) : c ∉ line := by
  induction s generalizing line with
  | nil =>
    rw [splitOn_nil, mem_singleton] at h
    simp [h]
  | cons d s ih =>
    rw [splitOn_cons_eq_if_modifyHead] at h
    split_ifs at h with hd
    · rcases mem_cons.mp h with rfl | hmem
      · exact not_mem_nil
      · exact ih hmem
    · cases hparts : s.splitOn c with
      | nil => exact absurd hparts (splitOn_ne_nil _ _)
      | cons first rest => grind [modifyHead_cons]

theorem settled_scan (output : Text) : Settled (scan output) := by
  have hfold : ∀ (lines : List Text) (block : ErrorBlock), Settled block →
      (∀ line ∈ lines, '\n' ∉ line) → Settled (lines.foldl ErrorBlock.add block) := by
    intro lines
    induction lines with
    | nil => exact fun _ h _ => h
    | cons line lines ih =>
      intro block h hlines
      exact ih _ (h.add (hlines line mem_cons_self)) fun l hl => hlines l (mem_cons_of_mem _ hl)
  exact hfold _ _ ⟨rfl, fun _ hline => absurd hline not_mem_nil⟩ fun _ => not_mem_of_mem_splitOn

/-- **The error encodes the state.** -/
theorem scan_restoreErrorOutput (output : Text) :
    scan (restoreErrorOutput output) = scan output := by
  have h := settled_scan output
  show (splitOn '\n' (['\n'].intercalate (scan output).lines)).foldl ErrorBlock.add {} = _
  by_cases hnil : (scan output).lines = []
  · have hempty := h.again
    rw [hnil] at hempty ⊢
    exact hempty
  · rw [splitOn_intercalate '\n' h.single hnil]
    exact h.again

theorem foldl_add_of_nil {lines : List Text} (h : (lines.foldl ErrorBlock.add {}).lines = [])
    (block : ErrorBlock) : lines.foldl ErrorBlock.add block = block := by
  induction lines using reverseRecOn with
  | nil => rfl
  | append_singleton lines line ih =>
    rw [foldl_append, foldl_cons, foldl_nil, add_eq] at h ⊢
    by_cases hskip : skipped (trimSpace line) = true
    · rw [if_pos hskip] at h ⊢
      exact ih h
    · rw [if_neg hskip] at h
      split_ifs at h <;> simp at h

/-! ## §3 — line by line -/

theorem restoreErrorOutput_append (x y : Text) :
    restoreErrorOutput (restoreErrorOutput x ++ '\n' :: y) =
      restoreErrorOutput (x ++ '\n' :: y) := by
  grind [scan, scan_append, scan_restoreErrorOutput, restoreErrorOutput]

theorem keepError_eq {x line : Text}
    (h : restoreErrorOutput line ≠ [] → (Utf8.encode (restoreErrorOutput x)).length +
      (Utf8.encode line).length + 1 ≤ syncDiagnosticOutputLimit) :
    keepError (restoreErrorOutput x) line = restoreErrorOutput (x ++ '\n' :: line) := by
  unfold keepError
  by_cases hnil : restoreErrorOutput line = []
  · have hscan : scan line = {} := by
      rw [← scan_restoreErrorOutput, hnil]
      rfl
    grind [scan, scan_append, foldl_add_of_nil, restoreErrorOutput]
  · rw [if_neg hnil, if_pos (h hnil), restoreErrorOutput_append]

theorem foldl_keepError {lines : List Text} {x : Text}
    (h : WithinLimit (restoreErrorOutput x) lines) :
    lines.foldl keepError (restoreErrorOutput x) =
      restoreErrorOutput (['\n'].intercalate (x :: lines)) := by
  induction lines generalizing x with
  | nil => rw [foldl_nil, intercalate_singleton]
  | cons line lines ih =>
    have hkeep := keepError_eq h.1
    have hrest := h.2
    rw [hkeep] at hrest
    rw [foldl_cons, hkeep, ih hrest]
    cases lines <;> simp [intercalate_cons_cons, intercalate_singleton]

/-- **The error kept line by line is the error of the whole output.** As long as the error and each
new line fit the limit together, it is `RestoreErrorOutput` of all lines joined; an error that is
read again with any text behind it gives the error of the two texts. -/
theorem final_error_incremental (lines : List Text) (h : WithinLimit [] lines) :
    lines.foldl keepError [] = restoreErrorOutput (['\n'].intercalate lines) ∧
      ∀ x y : Text, restoreErrorOutput (restoreErrorOutput x ++ '\n' :: y) =
        restoreErrorOutput (x ++ '\n' :: y) := by
  refine ⟨?_, restoreErrorOutput_append⟩
  cases lines with
  | nil => rfl
  | cons line lines =>
    -- an empty line in front is passed over
    have hfold := foldl_keepError (x := []) h
    rw [intercalate_cons_cons] at hfold
    refine hfold.trans ?_
    show ['\n'].intercalate (scan ([] ++ '\n' :: _)).lines = _
    rw [scan_append]
    rfl

/-- An info line is passed over, and an indented one continues the error. -/
theorem final_error_incremental_sample :
    let lines := [text "level=INFO msg=plan", text "Error: no space", text "  on device"]
    lines.foldl keepError [] = text "Error: no space\n  on device" ∧
      lines.foldl keepError [] = restoreErrorOutput (['\n'].intercalate lines) := by
  intro lines
  refine ⟨by decide +kernel, (final_error_incremental lines ?_).1⟩
  exact ⟨fun _ => by decide +kernel, fun _ => by decide +kernel, fun _ => by decide +kernel,
    trivial⟩

end LitestreamSoak.Worker.RestoreOutput
