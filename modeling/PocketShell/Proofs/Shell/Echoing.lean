import PocketShell.Command.Standard
import PocketShell.Proofs.Text.Occurrences

/-! Texts that are echoed. Escapes are taken off by four replacements, one after the other, in which
a null character holds the place of two backslashes. So they are read from left to right, as they
were written, but a null character of the text comes out as a backslash. -/
namespace PocketShell.Command

open Shell Text

/-- The text with its escapes read from left to right: behind a backslash, a backslash stands for
itself, `n` for a newline and `t` for a tab. -/
def readEscapes : List Char → List Char
  | '\\' :: '\\' :: rest => '\\' :: readEscapes rest
  | '\\' :: 'n' :: rest => '\n' :: readEscapes rest
  | '\\' :: 't' :: rest => '\t' :: readEscapes rest
  | c :: rest => c :: readEscapes rest
  | [] => []

/-- The escape of a character, if it needs one. -/
def escapeChar (c : Char) : List Char :=
  if c = '\\' then ['\\', '\\'] else if c = '\n' then ['\\', 'n'] else if c = '\t' then ['\\', 't']
  else [c]

/-- The text with an escape for every backslash, newline and tab. -/
def escape (text : String) : String := String.ofList (text.toList.flatMap escapeChar)

/-- A backslash in the place of a null character. -/
def unmark (c : Char) : Char := if c = '\x00' then '\\' else c

private theorem readEscapes_cons {c : Char} (plain : c ≠ '\\') (rest : List Char) :
    readEscapes (c :: rest) = c :: readEscapes rest :=
  readEscapes.eq_4 c rest (fun _ slash => absurd slash plain) (fun _ slash => absurd slash plain)
    (fun _ slash => absurd slash plain)

/-- What has been escaped is read back. -/
theorem readEscapes_escape (cs : List Char) : readEscapes (cs.flatMap escapeChar) = cs := by
  induction cs with
  | nil => rfl
  | cons c rest ih =>
    rw [List.flatMap_cons]
    by_cases slash : c = '\\'
    · subst slash
      exact congrArg ('\\' :: ·) ih
    by_cases newline : c = '\n'
    · subst newline
      exact congrArg ('\n' :: ·) ih
    by_cases tab : c = '\t'
    · subst tab
      exact congrArg ('\t' :: ·) ih
    · have plain : escapeChar c = [c] := by simp [escapeChar, slash, newline, tab]
      rw [plain, List.singleton_append, readEscapes_cons slash, ih]

/-- A null character is neither read nor made. -/
private theorem null_mem_readEscapes {cs : List Char} :
    '\x00' ∈ readEscapes cs ↔ '\x00' ∈ cs := by
  fun_induction readEscapes cs with
  | case1 rest ih => simp [ih]
  | case2 rest ih => simp [ih]
  | case3 rest ih => simp [ih]
  | case4 c rest _ _ _ ih => simp [ih]
  | case5 => simp

/-! ## One replacement after the other -/

private def marked (cs : List Char) : List Char := replaceFrom ['\\', '\\'] ['\x00'] 0 cs

private def broken (cs : List Char) : List Char := replaceFrom ['\\', 'n'] ['\n'] 0 cs

private def tabbed (cs : List Char) : List Char := replaceFrom ['\\', 't'] ['\t'] 0 cs

private theorem unescape_eq (text : String) :
    unescape text = String.ofList ((tabbed (broken (marked text.toList))).map unmark) := by
  unfold unescape replaceAll
  simp only [String.toList_ofList]
  exact congrArg _ (replaceFrom_single _ _ _)

/-- A backslash before another character than the one that is looked for stays. -/
private theorem replaceFrom_backslash {d e : Char} {new rest : List Char} (plain : d ≠ '\\')
    (apart : d ≠ e) : replaceFrom ['\\', e] new 0 ('\\' :: d :: rest) =
      '\\' :: d :: replaceFrom ['\\', e] new 0 rest := by
  rw [replaceFrom_cons (by simp [List.cons_prefix_cons, Ne.symm apart]),
    replaceFrom_cons_of_ne (Ne.symm plain)]

/-- By the recursion of the reading: the replacements together do what reading does. -/
private theorem replaced_eq (cs : List Char) :
    (tabbed (broken (marked cs))).map unmark = (readEscapes cs).map unmark := by
  have onward : ∀ {c : Char}, c ≠ '\\' → ∀ rest : List Char,
      tabbed (broken (marked (c :: rest))) = c :: tabbed (broken (marked rest)) := by
    intro c plain rest
    unfold tabbed broken marked
    rw [replaceFrom_cons_of_ne plain.symm, replaceFrom_cons_of_ne plain.symm,
      replaceFrom_cons_of_ne plain.symm]
  fun_induction readEscapes cs with
  | case1 rest ih =>
    have first : marked ('\\' :: '\\' :: rest) = '\x00' :: marked rest :=
      replaceFrom_append (List.cons_ne_nil _ _)
    have kept : tabbed (broken ('\x00' :: marked rest)) =
        '\x00' :: tabbed (broken (marked rest)) := by
      unfold tabbed broken
      rw [replaceFrom_cons_of_ne (by decide), replaceFrom_cons_of_ne (by decide)]
    rw [first, kept, List.map_cons, ih]
    rfl
  | case2 rest ih =>
    have first : marked ('\\' :: 'n' :: rest) = '\\' :: 'n' :: marked rest :=
      replaceFrom_backslash (by decide) (by decide)
    have second : broken ('\\' :: 'n' :: marked rest) = '\n' :: broken (marked rest) :=
      replaceFrom_append (List.cons_ne_nil _ _)
    have third : tabbed ('\n' :: broken (marked rest)) = '\n' :: tabbed (broken (marked rest)) :=
      replaceFrom_cons_of_ne (by decide)
    rw [first, second, third, List.map_cons, ih, List.map_cons]
  | case3 rest ih =>
    have first : broken (marked ('\\' :: 't' :: rest)) = '\\' :: 't' :: broken (marked rest) := by
      unfold broken marked
      rw [replaceFrom_backslash (by decide) (by decide),
        replaceFrom_backslash (by decide) (by decide)]
    have second : tabbed ('\\' :: 't' :: broken (marked rest)) =
        '\t' :: tabbed (broken (marked rest)) :=
      replaceFrom_append (List.cons_ne_nil _ _)
    rw [first, second, List.map_cons, ih, List.map_cons]
  | case4 c rest double newline tab ih =>
    by_cases slash : c = '\\'
    · subst slash
      cases rest with
      | nil => rfl
      | cons d more =>
        -- A backslash that escapes nothing stays, and so does what stands behind it.
        have other : d ≠ '\\' ∧ d ≠ 'n' ∧ d ≠ 't' :=
          ⟨fun same => double more rfl (by rw [same]), fun same => newline more rfl (by rw [same]),
            fun same => tab more rfl (by rw [same])⟩
        have stays : tabbed (broken (marked ('\\' :: d :: more))) =
            '\\' :: d :: tabbed (broken (marked more)) := by
          unfold tabbed broken marked
          rw [replaceFrom_backslash other.1 other.1, replaceFrom_backslash other.1 other.2.1,
            replaceFrom_backslash other.1 other.2.2]
        rw [onward other.1] at ih
        rw [stays, List.map_cons, ih, List.map_cons]
    · rw [onward slash, List.map_cons, ih, List.map_cons]
  | case5 => rfl

/-! ## Echoing -/

/-- Escapes are taken off as they are read, but for null characters. -/
theorem unescape_eq_readEscapes (text : String) :
    unescape text = String.ofList ((readEscapes text.toList).map unmark) := by
  rw [unescape_eq, replaced_eq]

theorem unescape_escape (text : String) :
    unescape (escape text) = String.ofList (text.toList.map unmark) := by
  rw [unescape_eq_readEscapes, escape, String.toList_ofList, readEscapes_escape]

/-- Nothing becomes a backslash where there is no null character. -/
private theorem map_unmark_eq_iff {cs : List Char} : cs.map unmark = cs ↔ '\x00' ∉ cs := by
  have kept : ∀ c, unmark c = c ↔ c ≠ '\x00' := by
    intro c
    unfold unmark
    split
    · rename_i null
      exact iff_of_false (by rw [null]; decide) (fun other => other null)
    · rename_i other
      exact iff_of_true rfl other
  have same : cs.map unmark = cs ↔ ∀ c ∈ cs, unmark c = id c := by
    rw [← List.map_inj_left, List.map_id]
  rw [same]
  simp only [id, kept]
  exact ⟨fun each null => each _ null rfl, fun none c member null => none (null ▸ member)⟩

private theorem echo_run {arg : String} (plain : arg ∉ echoOptions) (stdin : Option String)
    (caller : Caller Command) (workspace : Workspace) :
    run (.builtin .echo) [arg] stdin caller workspace = (.ok (.text (unescape arg)), workspace) := by
  have kept : [arg].dropWhile echoOptions.contains = [arg] :=
    List.dropWhile_cons_of_neg (by simpa using plain)
  change echo [arg] caller workspace = _
  unfold echo
  rw [kept, String.intercalate_singleton]
  rfl

/-- The escapes of a text are read from left to right, and what has been escaped is echoed as it
was, exactly if the text has no null character; each of these comes out as a backslash. -/
theorem echoed_whole_iff (text : String) :
    unescape text = String.ofList ((readEscapes text.toList).map unmark) ∧
    (unescape text = String.ofList (readEscapes text.toList) ↔ '\x00' ∉ text.toList) ∧
    (unescape (escape text) = text ↔ '\x00' ∉ text.toList) ∧
    (escape text ∉ echoOptions → ∀ stdin caller workspace, ∃ printed,
      run (.builtin .echo) [escape text] stdin caller workspace =
        (.ok (.text printed), workspace) ∧
      printed = String.ofList (text.toList.map unmark) ∧
      (printed = text ↔ '\x00' ∉ text.toList)) := by
  have whole : unescape (escape text) = text ↔ '\x00' ∉ text.toList := by
    rw [unescape_escape, ← String.toList_inj, String.toList_ofList, map_unmark_eq_iff]
  refine ⟨unescape_eq_readEscapes text, ?_, whole, fun plain stdin caller workspace =>
    ⟨_, echo_run plain stdin caller workspace, unescape_escape text, whole⟩⟩
  rw [unescape_eq_readEscapes, ← String.toList_inj, String.toList_ofList, String.toList_ofList,
    map_unmark_eq_iff, null_mem_readEscapes]

/-- Backslashes, newlines and tabs beside each other are echoed as they are. -/
theorem echoed_backslashes : '\x00' ∉ "\\n\n\\\\\t".toList ∧
    escape "\\n\n\\\\\t" = "\\\\n\\n\\\\\\\\\\t" ∧ escape "\\n\n\\\\\t" ∉ echoOptions ∧
    ∀ stdin caller workspace, run (.builtin .echo) ["\\\\n\\n\\\\\\\\\\t"] stdin caller workspace =
      (.ok (.text "\\n\n\\\\\t"), workspace) := by
  have free : '\x00' ∉ "\\n\n\\\\\t".toList := by decide
  have written : escape "\\n\n\\\\\t" = "\\\\n\\n\\\\\\\\\\t" := by decide
  have plain : escape "\\n\n\\\\\t" ∉ echoOptions := by decide
  refine ⟨free, written, plain, fun stdin caller workspace => ?_⟩
  obtain ⟨printed, ran, -, same⟩ :=
    (echoed_whole_iff "\\n\n\\\\\t").2.2.2 plain stdin caller workspace
  rw [written, same.mpr free] at ran
  exact ran

/-- A null character needs no escape and comes out as a backslash. -/
theorem null_echoed_as_backslash : escape "\x00" = "\x00" ∧ escape "\x00" ∉ echoOptions ∧
    unescape (escape "\x00") = "\\" ∧ readEscapes "\x00".toList = "\x00".toList ∧
    ∀ stdin caller workspace, run (.builtin .echo) ["\x00"] stdin caller workspace =
      (.ok (.text "\\"), workspace) :=
  ⟨by decide, by decide, by decide, by decide, fun _ _ _ => rfl⟩

end PocketShell.Command
