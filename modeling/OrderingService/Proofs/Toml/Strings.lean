import OrderingService.Toml.Lexical
import OrderingService.Toml.Writer

/-!
# Strings survive TOML

A string is written in one of six forms: with escapes or without, on one line or on several, and
with a quote of either kind. Which form is taken depends on the whole string, but how a form is read
depends on one character at a time. So most of what is here is about what a single character is
written as, and how the reader takes it from the front of what is left.

Quotes are the exception. On several lines, up to two of them stand for themselves, and three end
the string; when the string ends in quotes of its own, up to five stand together. The reader takes a
run of quotes as a whole. So what is shown of a body is shown with the quotes just before it, as many
as are still open, and a quote of the string only makes one more.

## Main definitions

* `Toml.Written` — what a character may be written as
* `Toml.Body` — the written body of a string of several lines

## Main results

* `Toml.basicBody_escapeBasic` — a string on one line is read to its closing quote
* `Toml.Body.linesBody_eq` — a string of several lines is read to its closing quotes
* `Toml.string_writeString` — whatever form is taken, the string is read back
-/

namespace OrderingService

namespace Toml

variable {quote c : Char} {escapes severalLines : Bool} {cs written rest : List Char}

/-! ### Characters -/

/-- What a character may be written as in a string: an escape, itself, or, in a string of several
lines, the end of a line. -/
inductive Written (quote : Char) (escapes severalLines : Bool) : Char → List Char → Prop
  | escaped {c first : Char} {more : List Char} (hescapes : escapes = true)
    (hfirst : first ∉ [' ', '\t', '\n', '\r'])
    (hread : ∀ rest, escape (first :: more ++ rest) = some (c, rest)) :
    Written quote escapes severalLines c ('\\' :: first :: more)
  | lineEnd (hlines : severalLines = true) : Written quote escapes severalLines '\n' ['\n']
  | plain {c : Char} (hplain : isPlain c = true) (hquote : c ≠ quote)
    (hbackslash : escapes = true → c ≠ '\\') : Written quote escapes severalLines c [c]

theorem isPlain_of_not_needsEscape (hc : needsEscape c = false) (hline : c ≠ '\n') :
    isPlain c = true := by
  simp only [needsEscape, isPlain] at hc ⊢
  by_cases htab : c = '\t'
  · simp [htab]
  · simp_all

theorem escape_scalar {digits : List Char} (hlength : digits.length = 4) (rest : List Char) :
    escape ('u' :: digits ++ rest) = (scalar? digits).bind fun c => some (c, rest) := by
  rcases digits with _ | ⟨a, _ | ⟨b, _ | ⟨d, _ | ⟨e, _ | _⟩⟩⟩⟩ <;> simp at hlength
  rfl

/-- A control character is read from its four digits. There are few of them, so each is tried. -/
theorem unicodeEscape_eq (hc : needsEscape c = true) :
    ∃ digits, unicodeEscape c = '\\' :: 'u' :: digits ∧
      ∀ rest, escape ('u' :: digits ++ rest) = some (c, rest) := by
  have hall : (List.range 128).all (fun n =>
      ((unicodeEscape (Char.ofNat n)).drop 2).length == 4
        && scalar? ((unicodeEscape (Char.ofNat n)).drop 2) == some (Char.ofNat n)) = true := by
    decide +kernel
  have hlt : c.toNat < 128 := by
    simp only [needsEscape, Bool.or_eq_true, Bool.and_eq_true, decide_eq_true_eq, beq_iff_eq] at hc
    omega
  have hdigits := List.all_eq_true.mp hall c.toNat (List.mem_range.mpr hlt)
  rw [Char.ofNat_toNat, Bool.and_eq_true, beq_iff_eq, beq_iff_eq] at hdigits
  refine ⟨(unicodeEscape c).drop 2, rfl, fun rest => ?_⟩
  rw [escape_scalar hdigits.1, hdigits.2]
  rfl

/-- The escape of a character with a letter of its own. -/
theorem written_letter {letter : Char} (hfirst : letter ∉ [' ', '\t', '\n', '\r'])
    (hread : ∀ rest, escape (letter :: rest) = some (c, rest)) :
    Written quote true severalLines c ['\\', letter] :=
  .escaped rfl hfirst hread

/-- What stands for a character that is not a quote in a basic string. -/
theorem exists_written (severalLines : Bool) (hquote : c ≠ '"') :
    ∃ form, Written '"' true severalLines c form ∧
      ∀ quotes cs, escapeBasic severalLines quotes (c :: cs)
        = form ++ escapeBasic severalLines 0 cs := by
  refine ⟨_, ?_, fun quotes cs => by rw [escapeBasic]; simpa using hquote⟩
  by_cases hletter : c ∈ ['\x08', '\t', '\x0c', '\r', '\\']
  · simp only [List.mem_cons, List.not_mem_nil, or_false] at hletter
    rcases hletter with rfl | rfl | rfl | rfl | rfl <;>
      exact written_letter (by decide) fun _ => rfl
  by_cases hline : c = '\n'
  · subst hline
    cases severalLines with
    | true => exact .lineEnd rfl
    | false => exact written_letter (by decide) fun _ => rfl
  simp only [List.mem_cons, List.not_mem_nil, or_false, not_or] at hletter
  obtain ⟨hb, ht, hf, hr, hbackslash⟩ := hletter
  simp only [hb, ht, hline, hf, hr, hbackslash, if_false]
  by_cases hcode : needsEscape c = true
  · obtain ⟨digits, heq, hread⟩ := unicodeEscape_eq hcode
    rw [if_pos hcode, heq]
    exact .escaped rfl (by decide) hread
  · rw [if_neg hcode]
    rw [Bool.not_eq_true] at hcode
    exact .plain (isPlain_of_not_needsEscape hcode hline) hquote fun _ => hbackslash

/-- On one line, a quote is written as an escape as well. -/
theorem exists_written_line (c : Char) : ∃ form, Written '"' true false c form ∧
    ∀ quotes cs, escapeBasic false quotes (c :: cs) = form ++ escapeBasic false 0 cs := by
  by_cases hquote : c = '"'
  · subst hquote
    refine ⟨['\\', '"'], written_letter (by decide) fun _ => rfl, fun quotes cs => ?_⟩
    rw [escapeBasic]
    rfl
  · exact exists_written false hquote

/-- What a character is written as does not start with a quote that stands for itself. -/
theorem Written.exists_cons {form : List Char} (hquote : quote ≠ '\\' ∧ quote ≠ '\n')
    (hform : Written quote escapes severalLines c form) :
    ∃ d more, form = d :: more ∧ d ≠ quote := by
  cases hform with
  | escaped => exact ⟨_, _, rfl, Ne.symm hquote.1⟩
  | lineEnd => exact ⟨_, _, rfl, Ne.symm hquote.2⟩
  | plain _ hc => exact ⟨_, _, rfl, hc⟩

/-! ### Strings on one line -/

theorem basicBody_written {form : List Char} (hform : Written '"' true false c form) (bound : Nat)
    (rest : List Char) : basicBody (bound + 1) (form ++ rest)
      = (basicBody bound rest).bind fun x => some (c :: x.1, x.2) := by
  cases hform with
  | escaped _ _ hread =>
    rw [List.cons_append, basicBody, hread]
    rfl
  | lineEnd hlines => cases hlines
  | plain hplain hquote hbackslash =>
    rw [List.singleton_append, basicBody, if_pos hplain]
    · rfl
    · exact hquote
    · exact hbackslash rfl

/-- **A basic string is read to its closing quote.** -/
theorem basicBody_escapeBasic (cs rest : List Char) {bound quotes : Nat}
    (hbound : (escapeBasic false quotes cs).length < bound) :
    basicBody bound (escapeBasic false quotes cs ++ '"' :: rest) = some (cs, rest) := by
  induction cs generalizing bound quotes with
  | nil =>
    obtain ⟨bound, rfl⟩ : ∃ n, bound = n + 1 := ⟨bound - 1, by omega⟩
    rw [escapeBasic, List.nil_append, basicBody]
  | cons c cs ih =>
    obtain ⟨form, hform, heq⟩ := exists_written_line c
    obtain ⟨first, more, hcons, -⟩ := hform.exists_cons (by decide)
    rw [heq, List.length_append, hcons, List.length_cons] at hbound
    obtain ⟨bound, rfl⟩ : ∃ n, bound = n + 1 := ⟨bound - 1, by omega⟩
    rw [heq, List.append_assoc, basicBody_written hform, ih (by omega)]
    rfl

/-! ### Strings of several lines -/

/-- The written body of a string of several lines, with `quotes` quotes just before it: no more than
two quotes stand together. -/
inductive Body (quote : Char) (escapes : Bool) : (quotes : Nat) → List Char → List Char → Prop
  | nil {quotes : Nat} (hquotes : quotes ≤ 2) : Body quote escapes quotes [] []
  | quote {quotes : Nat} {cs written : List Char}
    (tail : Body quote escapes (quotes + 1) cs written) :
    Body quote escapes quotes (quote :: cs) (quote :: written)
  | char {quotes : Nat} {c : Char} {form cs written : List Char} (hquotes : quotes ≤ 2)
    (head : Written quote escapes true c form) (tail : Body quote escapes 0 cs written) :
    Body quote escapes quotes (c :: cs) (form ++ written)

theorem takeWhile_replicate_append (quotes : Nat) (hc : c ≠ quote) (rest : List Char) :
    (List.replicate quotes quote ++ c :: rest).takeWhile (· == quote)
      = List.replicate quotes quote := by
  rw [List.takeWhile_append_of_pos (by simp), List.takeWhile_cons_of_neg (by simpa using hc),
    List.append_nil]

/-- Quotes that do not end the string. -/
theorem linesBody_quotes {quotes : Nat} (hpos : 0 < quotes) (hquotes : quotes ≤ 2) (hc : c ≠ quote)
    (bound : Nat) (rest : List Char) :
    linesBody quote escapes (bound + 1) (List.replicate quotes quote ++ c :: rest)
      = (linesBody quote escapes bound (c :: rest)).bind fun x =>
          some (List.replicate quotes quote ++ x.1, x.2) := by
  have hrun := takeWhile_replicate_append quotes hc rest
  obtain ⟨n, rfl⟩ : ∃ n, quotes = n + 1 := ⟨quotes - 1, by omega⟩
  rw [List.replicate_succ, List.cons_append] at hrun ⊢
  rw [linesBody, if_pos rfl, hrun]
  simp only [List.length_cons, List.length_replicate]
  rw [if_pos (by omega), ← List.cons_append, List.drop_left' (by simp)]
  rfl

/-- Three quotes end the string, and up to two before them belong to it. -/
theorem linesBody_close {quotes : Nat} (hquotes : quotes ≤ 2) (hc : c ≠ quote) (bound : Nat)
    (rest : List Char) :
    linesBody quote escapes (bound + 1)
        (List.replicate quotes quote ++ [quote, quote, quote] ++ c :: rest)
      = some (List.replicate quotes quote, c :: rest) := by
  have hthree : List.replicate quotes quote ++ [quote, quote, quote]
      = List.replicate (quotes + 3) quote :=
    List.replicate_append_replicate (n := quotes) (m := 3)
  have hrun := takeWhile_replicate_append (quotes + 3) hc rest
  rw [hthree]
  rw [List.replicate_succ, List.cons_append] at hrun ⊢
  rw [linesBody, if_pos rfl, hrun]
  simp only [List.length_cons, List.length_replicate]
  rw [if_neg (by omega), ← List.cons_append, ← List.replicate_succ]
  have hextra : min (quotes + 2 + 1 - 3) 2 = quotes := by omega
  rw [hextra, List.drop_left' (by simp)]

theorem newline_eq_none (hline : c ≠ '\n') (hreturn : c ≠ '\r') (rest : List Char) :
    newline (c :: rest) = none := by
  rw [newline] <;> simp_all

theorem afterEscapedLineEnd_eq_none (hc : c ∉ [' ', '\t', '\n', '\r']) (rest : List Char) :
    afterEscapedLineEnd (c :: rest) = none := by
  simp only [List.mem_cons, List.not_mem_nil, or_false, not_or] at hc
  obtain ⟨hspace, htab, hline, hreturn⟩ := hc
  have hskip : skipBlanks (c :: rest) = c :: rest :=
    List.dropWhile_cons_of_neg (by simp [hspace, htab])
  rw [afterEscapedLineEnd, hskip, newline_eq_none hline hreturn, Option.map_none]

/-- A character in a string of several lines. -/
theorem linesBody_written {form : List Char} (hquote : quote ≠ '\\' ∧ quote ≠ '\n')
    (hform : Written quote escapes true c form) (bound : Nat) (rest : List Char) :
    linesBody quote escapes (bound + 1) (form ++ rest)
      = (linesBody quote escapes bound rest).bind fun x => some (c :: x.1, x.2) := by
  cases hform with
  | escaped hescapes hfirst hread =>
    rw [List.cons_append, linesBody, if_neg (Ne.symm hquote.1), if_pos (by simp [hescapes]), hread]
    rw [List.cons_append, afterEscapedLineEnd_eq_none hfirst]
    rfl
  | lineEnd =>
    rw [List.singleton_append, linesBody, if_neg (Ne.symm hquote.2), if_neg (by simp)]
    rfl
  | plain hplain hc hbackslash =>
    have hnone : newline (c :: rest) = none := by
      refine newline_eq_none ?_ ?_ rest <;> rintro rfl <;> exact absurd hplain (by decide)
    rw [List.singleton_append, linesBody, if_neg hc, if_neg (by simpa using hbackslash), hnone]
    dsimp only
    rw [if_pos hplain]
    rfl

/-- **A string of several lines is read to its closing quotes.** The quotes just before are read
with what follows them, so they are part of what the induction is about. -/
theorem Body.linesBody_eq {quotes bound : Nat} (hquote : quote ≠ '\\' ∧ quote ≠ '\n')
    (h : Body quote escapes quotes cs written) (hc : c ≠ quote) (rest : List Char)
    (hbound : quotes + written.length < bound) :
    linesBody quote escapes bound
        (List.replicate quotes quote ++ (written ++ [quote, quote, quote] ++ c :: rest))
      = some (List.replicate quotes quote ++ cs, c :: rest) := by
  induction h generalizing bound with
  | nil hquotes =>
    obtain ⟨bound, rfl⟩ : ∃ n, bound = n + 1 := ⟨bound - 1, by omega⟩
    rw [List.nil_append, ← List.append_assoc, linesBody_close hquotes hc, List.append_nil]
  | @quote quotes cs written tail ih =>
    rw [List.length_cons] at hbound
    have hread := @ih bound (by omega)
    simpa [List.replicate_succ'] using hread
  | @char quotes d form cs written hquotes head tail ih =>
    rw [List.length_append] at hbound
    obtain ⟨first, more, hform, hfirst⟩ := head.exists_cons hquote
    rw [hform, List.length_cons] at hbound
    have hread : ∀ bound, written.length < bound → linesBody quote escapes (bound + 1)
        (form ++ (written ++ [quote, quote, quote] ++ c :: rest)) = some (d :: cs, c :: rest) := by
      intro bound hbound
      have hrest := @ih bound (by omega)
      rw [List.replicate_zero, List.nil_append, List.nil_append] at hrest
      rw [linesBody_written hquote head, hrest]
      rfl
    rw [List.append_assoc form, List.append_assoc form]
    rcases Nat.eq_zero_or_pos quotes with rfl | hpos
    · obtain ⟨bound, rfl⟩ : ∃ n, bound = n + 1 := ⟨bound - 1, by omega⟩
      exact hread bound (by omega)
    · obtain ⟨bound, rfl⟩ : ∃ n, bound = n + 2 := ⟨bound - 2, by omega⟩
      have hnext := hread bound (by omega)
      rw [hform, List.cons_append] at hnext ⊢
      rw [linesBody_quotes hpos hquotes hfirst, hnext]
      rfl

/-- A basic string of several lines. -/
theorem body_escapeBasic {quotes : Nat} (hquotes : quotes ≤ 2) (cs : List Char) :
    Body '"' true quotes cs (escapeBasic true quotes cs) := by
  induction cs generalizing quotes with
  | nil => exact .nil hquotes
  | cons c cs ih =>
    by_cases hquote : c = '"'
    · subst hquote
      rw [escapeBasic]
      by_cases hfew : quotes < 2
      · rw [if_pos (by simpa using hfew)]
        exact .quote (ih hfew)
      · rw [if_neg (by simpa using hfew)]
        exact .char hquotes (written_letter (by decide) fun _ => rfl) (ih (Nat.zero_le 2))
    · obtain ⟨form, hform, heq⟩ := exists_written true hquote
      rw [heq]
      exact .char hquotes hform (ih (Nat.zero_le 2))

/-! ### Runs of quotes -/

/-- One character of the search for the longest run. -/
def runStep (quote : Char) (state : Nat × Nat) (c : Char) : Nat × Nat :=
  let run := if c = quote then state.2 + 1 else 0
  (max state.1 run, run)

theorem longestRun_eq (quote : Char) (cs : List Char) :
    longestRun quote cs = (cs.foldl (runStep quote) (0, 0)).1 := rfl

/-- The longest run so far does not get shorter. -/
theorem le_foldl_runStep (quote : Char) (cs : List Char) (state : Nat × Nat) :
    state.1 ≤ (cs.foldl (runStep quote) state).1 := by
  induction cs generalizing state with
  | nil => exact Nat.le_refl _
  | cons c cs ih =>
    have hstep : state.1 ≤ (runStep quote state c).1 := Nat.le_max_left _ _
    exact Nat.le_trans hstep (ih _)

theorem notMem_of_longestRun (h : longestRun quote cs = 0) : quote ∉ cs := by
  intro hmem
  obtain ⟨before, after, rfl⟩ := List.append_of_mem hmem
  have hle := le_foldl_runStep quote after
    (runStep quote (before.foldl (runStep quote) (0, 0)) quote)
  rw [longestRun_eq, List.foldl_append, List.foldl_cons] at h
  simp only [runStep, if_true] at h hle
  omega

/-- A literal string of several lines, whose quotes do not stand in long runs. -/
theorem body_literal {quotes longest : Nat} (hcodes : ∀ c ∈ cs, needsEscape c = false)
    (hruns : (cs.foldl (runStep quote) (longest, quotes)).1 ≤ 2) (hquotes : quotes ≤ longest) :
    Body quote false quotes cs cs := by
  have hlongest := Nat.le_trans (le_foldl_runStep quote cs (longest, quotes)) hruns
  induction cs generalizing quotes longest with
  | nil => exact .nil (Nat.le_trans hquotes hlongest)
  | cons c cs ih =>
    rw [List.forall_mem_cons] at hcodes
    rw [List.foldl_cons] at hruns
    have hnext := Nat.le_trans (le_foldl_runStep quote cs _) hruns
    by_cases hquote : c = quote
    · subst hquote
      rw [runStep, if_pos rfl] at hruns hnext
      exact .quote (ih hcodes.2 hruns (Nat.le_max_right _ _) hnext)
    · rw [runStep, if_neg hquote] at hruns hnext
      have hform : Written quote false true c [c] := by
        by_cases hline : c = '\n'
        · subst hline
          exact .lineEnd rfl
        · exact .plain (isPlain_of_not_needsEscape hcodes.1 hline) hquote nofun
      exact .char (Nat.le_trans hquotes hlongest) hform
        (ih hcodes.2 hruns (Nat.zero_le _) hnext)

/-! ### All forms -/

/-- A literal string on one line. -/
theorem literalBody_append (hcodes : ∀ c ∈ cs, needsEscape c = false) (hline : '\n' ∉ cs)
    (hquote : '\'' ∉ cs) (rest : List Char) :
    literalBody (cs ++ '\'' :: rest) = some (cs, rest) := by
  have hcontent : ∀ c ∈ cs, (isPlain c && c != '\'') = true := by
    intro c hc
    rw [isPlain_of_not_needsEscape (hcodes c hc) (fun h => hline (h ▸ hc)), Bool.true_and,
      bne_iff_ne]
    exact fun h => hquote (h ▸ hc)
  simp only [literalBody]
  rw [List.dropWhile_append_of_pos hcontent, List.takeWhile_append_of_pos hcontent]
  simp

/-- A body in which nothing ends a line does not start with the end of a line. -/
theorem Body.newline_eq_none (hquote : quote ∈ ['"', '\'']) (h : Body quote escapes 0 cs written)
    (hline : '\n' ∉ cs) (rest : List Char) : newline (written ++ quote :: rest) = none := by
  have hfirst : quote ≠ '\n' ∧ quote ≠ '\r' := by
    simp only [List.mem_cons, List.not_mem_nil, or_false] at hquote
    rcases hquote with rfl | rfl <;> decide
  cases h with
  | nil | quote => exact Toml.newline_eq_none hfirst.1 hfirst.2 _
  | char _ head =>
    cases head with
    | escaped => exact Toml.newline_eq_none (by decide) (by decide) _
    | lineEnd => exact absurd List.mem_cons_self hline
    | plain hplain =>
      refine Toml.newline_eq_none ?_ ?_ _ <;> rintro rfl <;> exact absurd hplain (by decide)

/-- What stands between the opening quotes of a string of several lines and its body. -/
def lineStart (cs : List Char) : List Char := if cs.contains '\n' then ['\n'] else []

/-- A string of several lines is read from its opening quotes on. -/
theorem lines_append (hquote : quote ∈ ['"', '\'']) (hbody : Body quote escapes 0 cs written)
    (hc : c ≠ quote) (rest : List Char) :
    lines quote escapes (lineStart cs ++ (written ++ [quote, quote, quote] ++ c :: rest))
      = some (cs, c :: rest) := by
  have hread : ∀ bound, written.length < bound → linesBody quote escapes bound
      (written ++ [quote, quote, quote] ++ c :: rest) = some (cs, c :: rest) := by
    intro bound hbound
    have hother : quote ≠ '\\' ∧ quote ≠ '\n' := by
      simp only [List.mem_cons, List.not_mem_nil, or_false] at hquote
      rcases hquote with rfl | rfl <;> decide
    simpa using hbody.linesBody_eq hother hc rest (by omega)
  have hafter : (newline (lineStart cs ++ (written ++ [quote, quote, quote] ++ c :: rest))).getD
      (lineStart cs ++ (written ++ [quote, quote, quote] ++ c :: rest))
        = written ++ [quote, quote, quote] ++ c :: rest := by
    rw [lineStart]
    split
    next => rfl
    next hline =>
      have hnone := hbody.newline_eq_none hquote (by simpa using hline)
        ([quote, quote] ++ c :: rest)
      have hcons : written ++ [quote, quote, quote] ++ c :: rest
          = written ++ quote :: ([quote, quote] ++ c :: rest) := by simp
      rw [List.nil_append, hcons, hnone]
      rfl
  rw [lines, hafter]
  refine hread _ ?_
  simp only [List.length_append, List.length_cons]
  omega

/-- A basic string on one line does not start with three quotes. -/
theorem string_basic (cs : List Char) (hc : c ≠ '"') (rest : List Char) :
    string ('"' :: (escapeBasic false 0 cs ++ '"' :: c :: rest))
      = some (String.ofList cs, c :: rest) := by
  have hbody : lineString ('"' :: (escapeBasic false 0 cs ++ '"' :: c :: rest))
      = some (String.ofList cs, c :: rest) := by
    rw [lineString, basicBody_escapeBasic]
    · rfl
    · rw [List.length_append]
      omega
  have hthree : ∀ more, escapeBasic false 0 cs ++ '"' :: c :: rest ≠ '"' :: '"' :: more := by
    intro more heq
    cases cs with
    | nil =>
      cases heq
      exact hc rfl
    | cons d cs =>
      obtain ⟨form, hform, hwritten⟩ := exists_written_line d
      obtain ⟨first, tail, rfl, hfirst⟩ := hform.exists_cons (by decide)
      rw [hwritten] at heq
      exact hfirst (List.cons.inj heq).1
  rw [string]
  · exact hbody
  · intro more heq
    exact hthree more (List.cons.inj heq).2
  · intro more heq
    cases heq

theorem string_literal (hcodes : ∀ c ∈ cs, needsEscape c = false) (hline : '\n' ∉ cs)
    (hquote : '\'' ∉ cs) (hne : cs ≠ []) (rest : List Char) :
    string ('\'' :: (cs ++ '\'' :: rest)) = some (String.ofList cs, rest) := by
  have hbody : lineString ('\'' :: (cs ++ '\'' :: rest)) = some (String.ofList cs, rest) := by
    rw [lineString, literalBody_append hcodes hline hquote]
    rfl
  rw [string]
  · exact hbody
  · intro more heq
    cases heq
  · intro more heq
    obtain ⟨c, cs, rfl⟩ := List.exists_cons_of_ne_nil hne
    have hfirst : c = '\'' := (List.cons.inj (List.cons.inj heq).2).1
    exact hquote (hfirst ▸ List.mem_cons_self)

theorem string_basicLines (cs : List Char) (hc : c ≠ '"') (rest : List Char) :
    string ('"' :: '"' :: '"' ::
        (lineStart cs ++ (escapeBasic true 0 cs ++ ['"', '"', '"'] ++ c :: rest)))
      = some (String.ofList cs, c :: rest) := by
  rw [string, lines_append (by decide) (body_escapeBasic (Nat.zero_le 2) cs) hc]
  rfl

theorem string_literalLines (hcodes : ∀ c ∈ cs, needsEscape c = false)
    (hruns : longestRun '\'' cs ≤ 2) (hc : c ≠ '\'') (rest : List Char) :
    string ('\'' :: '\'' :: '\'' :: (lineStart cs ++ (cs ++ ['\'', '\'', '\''] ++ c :: rest)))
      = some (String.ofList cs, c :: rest) := by
  rw [string, lines_append (by decide) (body_literal hcodes hruns (Nat.le_refl 0)) hc]
  rfl

/-- **Strings survive TOML.** A written string is read to its end, with the end of a line behind
it. One case for each of the forms in which a string is written. -/
theorem string_writeString (text : String) (rest : List Char) :
    string ((writeString text).toList ++ '\n' :: rest) = some (text, '\n' :: rest) := by
  have hstart : (if '\n' ∈ text.toList then "\n" else "").toList = lineStart text.toList := by
    rw [lineStart, List.contains_eq_mem]
    simp only [decide_eq_true_eq]
    split <;> rfl
  have hbasic := string_basic text.toList (c := '\n') (by decide) rest
  have hbasicLines := string_basicLines text.toList (c := '\n') (by decide) rest
  rw [String.ofList_toList] at hbasic hbasicLines
  have hcodes : text.toList.any needsEscape = false → ∀ c ∈ text.toList, needsEscape c = false := by
    simp
  simp only [writeString]
  split
  next => simpa using hbasic
  next hplain =>
  split
  next hliteral =>
    simp only [Bool.and_eq_true, Bool.not_eq_true', beq_iff_eq, List.contains_eq_mem,
      decide_eq_false_iff_not] at hliteral
    obtain ⟨⟨hnone, hsingle⟩, hline⟩ := hliteral
    have hne : text.toList ≠ [] := by
      intro hnil
      rw [hnil] at hplain
      exact hplain rfl
    have hread := string_literal (hcodes hnone) hline (notMem_of_longestRun hsingle) hne
      ('\n' :: rest)
    simpa using hread
  split
  next => simpa [hstart] using hbasicLines
  split
  next hliteral =>
    simp only [Bool.and_eq_true, Bool.not_eq_true', decide_eq_true_eq] at hliteral
    have hread := string_literalLines (hcodes hliteral.1) hliteral.2 (c := '\n') (by decide) rest
    simpa [hstart] using hread
  split
  next hline =>
    rw [lineStart, if_pos hline] at hbasicLines
    simpa using hbasicLines
  next => simpa using hbasic

/-- Whatever is read as a string starts with a quote. -/
theorem exists_cons_of_string {text : String} (h : string cs = some (text, rest)) :
    ∃ quote more, cs = quote :: more ∧ (quote = '"' ∨ quote = '\'') := by
  rw [string.eq_def] at h
  split at h
  · exact ⟨_, _, rfl, Or.inl rfl⟩
  · exact ⟨_, _, rfl, Or.inr rfl⟩
  · rw [lineString.eq_def] at h
    split at h
    · exact ⟨_, _, rfl, Or.inl rfl⟩
    · exact ⟨_, _, rfl, Or.inr rfl⟩
    · cases h

end Toml

end OrderingService
