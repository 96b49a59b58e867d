import Pc20iii.Edfs.Path
import Pc20iii.Program.CircularLog

/-!
# The trace of EtherDFS

`edfs_trace` puts a line for each request into an array of 2048 entries, round and round, and
`edfs_trace_dump` writes them to a file, from the oldest one on.

A line has the path of the request in it, as the guest has sent it, and the dump passes it to
`fprintf` as the format. A percent sign in it is a directive there, and the arguments are missing:
what is written is not defined, but for `%%`, which is one percent sign. The dump is what has been
traced exactly when no line has a percent sign in what is kept of it (`dump_verbatim_iff`).
-/

namespace Pc20iii

open StateProgram

/-- `EDFS_TRACE_BUFFER_SIZE`. -/
def edfsTraceBufferSize : ℕ := 2048

/-- `EDFS_TRACE_MAX`. -/
def edfsTraceMax : ℕ := 256

/-- `edfs_trace_buffer` and `edfs_trace_buffer_n`. -/
abbrev EdfsTraceBuffer := CircularLog edfsTraceBufferSize CString

/-- The cleared buffer. -/
def edfsTraceInit : EdfsTraceBuffer where
  entries := fun _ => []
  next := 0
  next_lt := by decide

/-- What `vsnprintf` puts into an entry. -/
def traced (text : CString) : CString := (cStringOf text).take (edfsTraceMax - 1)

/-- `edfs_trace`, for the text that the format and its arguments give. -/
def edfsTrace (buffer : EdfsTraceBuffer) (text : CString) : EdfsTraceBuffer :=
  buffer.record (traced text)

/-- `'%'`. -/
def percent : Byte := 0x25

/-- `fprintf` with a format and no arguments. What is written from a directive on is not defined,
but for `%%`. -/
def fprintf (directive : CString → CString) : CString → CString
  | [] => []
  | [c] => if c = percent then directive [] else [c]
  | c :: d :: rest =>
    if c = percent then
      if d = percent then percent :: fprintf directive rest else directive (d :: rest)
    else c :: fprintf directive (d :: rest)

/-- `edfs_trace_dump`. -/
def edfsTraceDump (directive : CString → CString) (buffer : EdfsTraceBuffer) : CString :=
  let line i := if buffer.entries i ≠ [] then fprintf directive (buffer.entries i) else []
  (List.range' buffer.next (edfsTraceBufferSize - buffer.next)).flatMap line ++
    (List.range buffer.next).flatMap line

/-- The lines of the last calls, as far as they are kept, without the empty ones. -/
def recentTexts (texts : List CString) : List CString :=
  ((texts.map traced).drop (texts.length - edfsTraceBufferSize)).filter (· ≠ [])

variable {directive : CString → CString}

/-! ### The order -/

/-- The two loops write the entries, oldest first. -/
theorem edfsTraceDump_eq (directive : CString → CString) (buffer : EdfsTraceBuffer) :
    edfsTraceDump directive buffer = buffer.oldestFirst.flatMap (fprintf directive) := by
  -- an entry that is skipped has nothing to write
  have hline : ∀ i, (if buffer.entries i ≠ [] then fprintf directive (buffer.entries i) else []) =
      fprintf directive (buffer.entries i) := by
    intro i
    split
    case isTrue => rfl
    case isFalse hempty => rw [not_not.mp hempty, fprintf]
  rw [edfsTraceDump, CircularLog.oldestFirst, CircularLog.indices, List.flatMap_map,
    List.flatMap_append]
  simp only [hline]

/-- After a run, the dump has the lines of the last calls. -/
theorem edfsTraceDump_runAll (directive : CString → CString) (texts : List CString) :
    edfsTraceDump directive (runAll edfsTrace edfsTraceInit texts) =
      (recentTexts texts).flatMap (fprintf directive) := by
  have hrun : runAll edfsTrace edfsTraceInit texts =
      runAll CircularLog.record edfsTraceInit (texts.map traced) := by
    rw [runAll, runAll, List.foldl_map]
    rfl
  have hempty : ∀ n, (List.replicate n []).flatMap (fprintf directive) = [] := by
    intro n
    refine List.flatMap_eq_nil_iff.mpr fun text htext => ?_
    rw [List.eq_of_mem_replicate htext, fprintf]
  -- an empty line is nothing, whether it is written or not
  have hfilter : ∀ lines : List CString,
      (lines.filter (· ≠ [])).flatMap (fprintf directive) = lines.flatMap (fprintf directive) := by
    intro lines
    induction lines with
    | nil => rfl
    | cons line rest ih =>
      cases line with
      | nil => exact ih
      | cons c line => rw [List.filter_cons_of_pos rfl, List.flatMap_cons, ih, List.flatMap_cons]
  rw [edfsTraceDump_eq, hrun, CircularLog.oldestFirst_runAll_of_const fun _ => rfl,
    List.flatMap_append, hempty, List.nil_append, List.length_map, recentTexts, hfilter]

/-! ### The format -/

/-- A line without a percent sign is written as it is. -/
theorem fprintf_of_not_mem {text : CString} (h : percent ∉ text) :
    fprintf directive text = text := by
  fun_induction fprintf directive text with
  | case1 => rfl
  | case2 => exact absurd List.mem_cons_self h
  | case3 c hc => rfl
  | case4 rest ih => exact absurd List.mem_cons_self h
  | case5 d rest hd => exact absurd List.mem_cons_self h
  | case6 c d rest hc ih => rw [ih fun hmem => h (List.mem_cons_of_mem c hmem)]

/-- If nothing is written from a directive on, no line gets longer. -/
theorem length_fprintf_le (text : CString) :
    (fprintf (fun _ => []) text).length ≤ text.length := by
  fun_induction fprintf (fun _ => []) text with
  | case1 => exact Nat.le_refl _
  | case2 => exact Nat.zero_le _
  | case3 c hc => exact Nat.le_refl _
  | case4 rest ih => exact Nat.succ_le_succ (Nat.le_succ_of_le ih)
  | case5 d rest hd => exact Nat.zero_le _
  | case6 c d rest hc ih => exact Nat.succ_le_succ ih

/-- A line with a percent sign gets shorter then. -/
theorem length_fprintf_lt {text : CString} (h : percent ∈ text) :
    (fprintf (fun _ => []) text).length < text.length := by
  fun_induction fprintf (fun _ => []) text with
  | case1 => exact absurd h List.not_mem_nil
  | case2 => exact Nat.zero_lt_one
  | case3 c hc => exact absurd (List.mem_singleton.mp h).symm hc
  | case4 rest ih => exact Nat.succ_lt_succ (Nat.lt_succ_of_le (length_fprintf_le rest))
  | case5 d rest hd => exact Nat.zero_lt_succ _
  | case6 c d rest hc ih =>
    exact Nat.succ_lt_succ (ih ((List.mem_cons.mp h).resolve_left (Ne.symm hc)))

/-- What is lost of one line is missing in the dump. -/
theorem length_flatMap_fprintf {lines : List CString} :
    (lines.flatMap (fprintf fun _ => [])).length ≤ lines.flatten.length ∧
      ((∃ line ∈ lines, percent ∈ line) →
        (lines.flatMap (fprintf fun _ => [])).length < lines.flatten.length) := by
  induction lines with
  | nil => exact ⟨Nat.le_refl _, fun ⟨_, hline, _⟩ => absurd hline List.not_mem_nil⟩
  | cons line rest ih =>
    obtain ⟨hle, hlt⟩ := ih
    have hline := length_fprintf_le line
    rw [List.flatMap_cons, List.flatten_cons, List.length_append, List.length_append]
    refine ⟨Nat.add_le_add hline hle, ?_⟩
    rintro ⟨line', hmem, hpercent⟩
    -- the line itself loses something, or a later one does
    rcases List.mem_cons.mp hmem with rfl | hmem
    · exact Nat.add_lt_add_of_lt_of_le (length_fprintf_lt hpercent) hle
    · exact Nat.add_lt_add_of_le_of_lt hline (hlt ⟨line', hmem, hpercent⟩)

/-- **The dump of a trace.** After any calls, the dump is what the last ones have traced, whatever
a directive does, exactly when none of it has a percent sign. -/
theorem dump_verbatim_iff (texts : List CString) :
    (∀ directive, edfsTraceDump directive (runAll edfsTrace edfsTraceInit texts) =
        (recentTexts texts).flatten) ↔
      ∀ text ∈ recentTexts texts, percent ∉ text := by
  constructor
  · intro hverbatim text htext hpercent
    -- a directive that writes nothing makes the dump too short
    have hdump := hverbatim fun _ => []
    rw [edfsTraceDump_runAll] at hdump
    have hlost := length_flatMap_fprintf.2 ⟨text, htext, hpercent⟩
    rw [hdump] at hlost
    exact Nat.lt_irrefl _ hlost
  · intro h directive
    have hsame : (recentTexts texts).map (fprintf directive) = (recentTexts texts).map id :=
      List.map_congr_left fun text htext => fprintf_of_not_mem (h text htext)
    rw [edfsTraceDump_runAll, List.flatMap_def, hsame, List.map_id]

/-- The line of CHDIR for a path: `"CHDIR, s='%s'\n"`. -/
def chdirText (path : CString) : CString :=
  [0x43, 0x48, 0x44, 0x49, 0x52, 0x2C, 0x20, 0x73, 0x3D, 0x27] ++ path ++ [0x27, 0x0A]

/-- Of the two percent signs of the path `\%%`, one is written. -/
theorem dump_percent : ¬ ∀ (directive : CString → CString) (texts : List CString),
    edfsTraceDump directive (runAll edfsTrace edfsTraceInit texts) =
      (recentTexts texts).flatten := by
  intro h
  have hdump := h (fun _ => []) [chdirText [backslash, percent, percent]]
  rw [edfsTraceDump_runAll] at hdump
  exact absurd hdump (by decide)

end Pc20iii
