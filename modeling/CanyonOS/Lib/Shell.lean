import Mathlib
import CanyonOS.Lib.CodePoints

/-!
# A command line read by a POSIX shell

The arguments a shell makes of a text that begins with the name of a command. It reads words,
replaces tildes and expansions, splits what those stand for, expands path names and removes quotes.
A text of words that all stand for themselves is read back as those words on every machine, and no
other text is.
-/

namespace Shell

open CodePoints

/-! ### Characters -/

inductive Kind where
  | blank
  | operator
  | apostrophe
  | quotationMark
  | backslash
  | expansion
  | ordinary
deriving DecidableEq

/-- What a character does that is not quoted. -/
def kind (char : CodePoint) : Kind :=
  if char ∈ ofString " \t" then .blank
  else if char ∈ ofString "|&;<>()\n" then .operator
  else if char = ofChar '\x27' then .apostrophe
  else if char = ofChar '"' then .quotationMark
  else if char = ofChar '\\' then .backslash
  else if char ∈ ofString "$\x60" then .expansion
  else .ordinary

def isNameStart (char : CodePoint) : Bool :=
  char = ofChar '_' ∨ (ofChar 'A' ≤ char ∧ char ≤ ofChar 'Z') ∨
    (ofChar 'a' ≤ char ∧ char ≤ ofChar 'z')

def isNameChar (char : CodePoint) : Bool :=
  isNameStart char ∨ (ofChar '0' ≤ char ∧ char ≤ ofChar '9')

/-! ### Machines -/

/-- Characters, each with whether it was quoted. -/
abbrev Field := List (CodePoint × Bool)

/-- A part of a word: a character of the text, or what an expansion stands for. -/
inductive Piece where
  | char (char : CodePoint) (quoted : Bool)
  | value (text : CodePoints) (quoted : Bool)

abbrev Word := List Piece

/-- What a text means differently from machine to machine, path names matched with `fnmatch`. -/
structure Machine (fnmatch : Field → CodePoints → Bool) where
  /-- its value, empty for one that is not set -/
  parameter : CodePoints → CodePoints
  /-- of a brace, a parenthesis or a backquote and the text after it: what the substitution stands
  for and the text after its end -/
  substitute : CodePoint → CodePoints → Option (CodePoints × CodePoints)
  /-- what POSIX leaves open: a dollar sign that begins no expansion, a backslash at the end -/
  unspecified : CodePoint → CodePoints
  /-- the directory of a login name, of the empty one the user's own -/
  home : CodePoints → Option CodePoints
  /-- the path names a pattern matches -/
  found : Field → List CodePoints
  found_nodup : ∀ pattern, (found pattern).Nodup
  found_matches : ∀ pattern, ∀ path ∈ found pattern, fnmatch pattern path = true

variable {fnmatch : Field → CodePoints → Bool} (machine : Machine fnmatch)

/-! ### Reading words -/

/-- What a dollar sign or a backquote stands for with the text after it, and the rest. -/
def expand (char : CodePoint) (text : CodePoints) : Option (CodePoints × CodePoints) :=
  if char = ofChar '\x60' then machine.substitute char text
  else
    match text with
    | [] => some (machine.unspecified char, [])
    | first :: rest =>
        if first ∈ ofString "\x7b(" then machine.substitute first rest
        else if isNameStart first then
          some (machine.parameter (first :: rest.takeWhile isNameChar), rest.dropWhile isNameChar)
        else if first ∈ ofString "0123456789@*#?-$!" then some (machine.parameter [first], rest)
        else some (machine.unspecified char, first :: rest)

inductive Mode where
  | plain
  | single
  | double
deriving DecidableEq

/-- The word read so far, with another piece. -/
def push (word : Option Word) (piece : Piece) : Option Word :=
  some (word.getD [] ++ [piece])

inductive Step where
  | fails
  /-- the rest is a comment -/
  | ends
  | splits (rest : CodePoints)
  | goes (mode : Mode) (word : Option Word) (rest : CodePoints)

/-- What the next character does to the word read so far, given the text after it. It fails at an
operator or a line break: that is more than a command and its arguments. -/
def step (mode : Mode) (word : Option Word) (char : CodePoint) (text : CodePoints) : Step :=
  match mode with
  | .plain =>
      match kind char with
      | .blank => .splits text
      | .operator => .fails
      | .apostrophe => .goes .single (push word (.value [] true)) text
      | .quotationMark => .goes .double (push word (.value [] true)) text
      | .backslash =>
          match text with
          | [] => .goes .plain (push word (.value (machine.unspecified char) false)) []
          | next :: rest =>
              if next = ofChar '\n' then .goes .plain word rest
              else .goes .plain (push word (.char next true)) rest
      | .expansion =>
          match expand machine char text with
          | none => .fails
          | some (value, rest) => .goes .plain (push word (.value value false)) rest
      | .ordinary =>
          if char = ofChar '#' ∧ word = none then
            -- up to the end of its line
            if ofChar '\n' ∈ text then .fails else .ends
          else .goes .plain (push word (.char char false)) text
  | .single =>
      if kind char = .apostrophe then .goes .plain word text
      else .goes .single (push word (.char char true)) text
  | .double =>
      match kind char with
      | .quotationMark => .goes .plain word text
      | .backslash =>
          match text with
          | [] => .fails
          | next :: rest =>
              if next = ofChar '\n' then .goes .double word rest
              else if next ∈ ofString "$\x60\"\\" then
                .goes .double (push word (.char next true)) rest
              else .goes .double (push word (.char char true)) text
      | .expansion =>
          match expand machine char text with
          | none => .fails
          | some (value, rest) => .goes .double (push word (.value value true)) rest
      | _ => .goes .double (push word (.char char true)) text

/-- The words of a text no longer than the first argument, after the word read so far. -/
def read : ℕ → Mode → Option Word → CodePoints → Option (List Word)
  | _, mode, word, [] => if mode = .plain then some word.toList else none
  | 0, _, _, _ :: _ => none
  | fuel + 1, mode, word, char :: text =>
      match step machine mode word char text with
      | .fails => none
      | .ends => some []
      | .splits rest => (read fuel .plain none rest).map (word.toList ++ ·)
      | .goes mode word rest => read fuel mode word rest

/-! ### From words to arguments -/

/-- The login name after a tilde, up to a slash, and what follows; none when part is quoted. -/
def login : Word → Option (CodePoints × Word)
  | [] => some ([], [])
  | .char char false :: rest =>
      if char = ofChar '/' then some ([], .char char false :: rest)
      else (login rest).map fun found => (char :: found.1, found.2)
  | _ => none

def tilde (word : Word) : Word :=
  match word with
  | .char char false :: rest =>
      if char = ofChar '~' then
        match login rest with
        | some (name, after) =>
            match machine.home name with
            | some home => .value home true :: after
            | none => word
        | none => word
      else word
  | _ => word

/-- Splits at the blanks that an expansion brought in, with the field read so far. -/
def splitValue : Option Field → CodePoints → List Field × Option Field
  | field, [] => ([], field)
  | field, char :: text =>
      if char ∈ ofString " \t\n" then
        let (fields, last) := splitValue none text
        (field.toList ++ fields, last)
      else splitValue (some (field.getD [] ++ [(char, false)])) text

def splitFields : Option Field → Word → List Field
  | field, [] => field.toList
  | field, .char char quoted :: word => splitFields (some (field.getD [] ++ [(char, quoted)])) word
  | field, .value text true :: word =>
      splitFields (some (field.getD [] ++ text.map fun char => (char, true))) word
  | field, .value text false :: word =>
      let (fields, last) := splitValue field text
      fields ++ splitFields last word

def isPattern (field : Field) : Bool :=
  field.any fun entry => !entry.2 && entry.1 ∈ ofString "*?["

/-- The path names a field matches; itself, without its quotes, when there is none. -/
def pathNames (field : Field) : List CodePoints :=
  if isPattern field ∧ machine.found field ≠ [] then machine.found field
  else [field.map Prod.fst]

def arguments (word : Word) : List CodePoints :=
  (splitFields none (tilde machine word)).flatMap (pathNames machine)

/-- The arguments of a text that begins with the name of a command, the name among them. -/
def argv (text : CodePoints) : Option (List CodePoints) :=
  (read machine text.length .plain none text).map (List.flatMap (arguments machine))

/-! ### Words that stand for themselves -/

/-- The word that is read of a text in which nothing is special. -/
def asWord (text : CodePoints) : Word :=
  text.map (Piece.char · false)

def asField (text : CodePoints) : Field :=
  text.map fun char => (char, false)

/-- A word of characters that stand for themselves, unless it is a tilde or a pattern. -/
structure Clean (text : CodePoints) : Prop where
  nonempty : text ≠ []
  ordinary : ∀ char ∈ text, kind char = .ordinary
  notComment : text.head? ≠ some (ofChar '#')

/-- A word that every machine reads as itself. -/
structure Literal (fnmatch : Field → CodePoints → Bool) (text : CodePoints) : Prop
    extends Clean text where
  notTilde : text.head? ≠ some (ofChar '~')
  /-- as a pattern it matches no other path name -/
  pattern : isPattern (asField text) → ∀ path, fnmatch (asField text) path = true → path = text

/-- `" ".join` -/
def join (words : List CodePoints) : CodePoints :=
  [ofChar ' '].intercalate words

theorem kind_blank : kind (ofChar ' ') = .blank := by
  decide

theorem join_cons_cons (text next : CodePoints) (texts : List CodePoints) :
    join (text :: next :: texts) = text ++ ofChar ' ' :: join (next :: texts) := by
  simp [join]

theorem read_ordinary {word : Word} {text rest : CodePoints} {fuel : ℕ}
    (hordinary : ∀ char ∈ text, kind char = .ordinary) :
    read machine (text.length + fuel) .plain (some word) (text ++ rest) =
      read machine fuel .plain (some (word ++ asWord text)) rest := by
  induction text generalizing word with
  | nil => simp [asWord]
  | cons char text ih =>
      obtain ⟨hchar, htext⟩ := List.forall_mem_cons.mp hordinary
      have hstep : step machine .plain (some word) char (text ++ rest) =
          .goes .plain (some (word ++ [.char char false])) (text ++ rest) := by
        simp [step, hchar, push]
      rw [List.length_cons, Nat.add_right_comm, List.cons_append, read, hstep]
      simp only [ih htext]
      simp [asWord]

theorem read_word {text rest : CodePoints} {fuel : ℕ} (hclean : Clean text) :
    read machine (text.length + fuel) .plain none (text ++ rest) =
      read machine fuel .plain (some (asWord text)) rest := by
  obtain ⟨hnonempty, hordinary, hcomment⟩ := hclean
  cases text with
  | nil => exact absurd rfl hnonempty
  | cons char text =>
      obtain ⟨hchar, htext⟩ := List.forall_mem_cons.mp hordinary
      have hhash : char ≠ ofChar '#' := fun heq => hcomment (by rw [heq]; rfl)
      have hstep : step machine .plain none char (text ++ rest) =
          .goes .plain (some [.char char false]) (text ++ rest) := by
        simp [step, hchar, hhash, push]
      rw [List.length_cons, Nat.add_right_comm, List.cons_append, read, hstep]
      exact read_ordinary machine htext

theorem read_join {texts : List CodePoints} (hclean : ∀ text ∈ texts, Clean text) :
    read machine (join texts).length .plain none (join texts) = some (texts.map asWord) := by
  induction texts with
  | nil => rfl
  | cons text texts ih =>
      obtain ⟨htext, htexts⟩ := List.forall_mem_cons.mp hclean
      cases texts with
      | nil =>
          have hread := @read_word fnmatch machine text [] 0 htext
          simpa [join, read] using hread
      | cons next texts =>
          have hstep : step machine .plain (some (asWord text)) (ofChar ' ')
              (join (next :: texts)) = .splits (join (next :: texts)) := by
            simp [step, kind_blank]
          rw [join_cons_cons, List.length_append, List.length_cons, read_word machine htext, read,
            hstep]
          simp only [ih htexts]
          rfl

theorem tilde_asWord {text : CodePoints} (htilde : text.head? ≠ some (ofChar '~')) :
    tilde machine (asWord text) = asWord text := by
  cases text with
  | nil => rfl
  | cons char text =>
      have hchar : char ≠ ofChar '~' := fun heq => htilde (by rw [heq]; rfl)
      simp [asWord, tilde, hchar]

theorem splitFields_asWord (field : Field) (text : CodePoints) :
    splitFields (some field) (asWord text) = [field ++ asField text] := by
  induction text generalizing field with
  | nil => simp [asWord, asField, splitFields]
  | cons char text ih =>
      have hnext := ih (field ++ [(char, false)])
      simpa [asWord, asField, splitFields] using hnext

theorem splitFields_none {text : CodePoints} (hnonempty : text ≠ []) :
    splitFields none (asWord text) = [asField text] := by
  cases text with
  | nil => exact absurd rfl hnonempty
  | cons char text => exact splitFields_asWord [(char, false)] text

theorem map_fst_asField (text : CodePoints) : (asField text).map Prod.fst = text := by
  rw [asField, List.map_map]
  exact List.map_id text

theorem pathNames_asField {text : CodePoints} (hliteral : Literal fnmatch text) :
    pathNames machine (asField text) = [text] := by
  unfold pathNames
  split_ifs with hfound
  · have hall : ∀ path ∈ machine.found (asField text), path = text := fun path hpath =>
      hliteral.pattern hfound.1 path (machine.found_matches _ path hpath)
    have hnodup := machine.found_nodup (asField text)
    cases hpaths : machine.found (asField text) with
    | nil => exact absurd hpaths hfound.2
    | cons first others =>
        rw [hpaths] at hall hnodup
        obtain ⟨rfl, hothers⟩ := List.forall_mem_cons.mp hall
        obtain ⟨hfirst, -⟩ := List.nodup_cons.mp hnodup
        cases others with
        | nil => rfl
        | cons second others =>
            have hsecond := hothers second (List.mem_cons_self ..)
            exact absurd (hsecond ▸ List.mem_cons_self ..) hfirst
  · rw [map_fst_asField]

theorem arguments_asWord {text : CodePoints} (hclean : Clean text)
    (htilde : text.head? ≠ some (ofChar '~')) :
    arguments machine (asWord text) = pathNames machine (asField text) := by
  rw [arguments, tilde_asWord machine htilde, splitFields_none hclean.nonempty,
    List.flatMap_singleton]

theorem argv_clean {texts : List CodePoints}
    (hclean : ∀ text ∈ texts, Clean text ∧ text.head? ≠ some (ofChar '~')) :
    argv machine (join texts) =
      some (texts.flatMap fun text => pathNames machine (asField text)) := by
  rw [argv, read_join machine fun text htext => (hclean text htext).1, Option.map_some,
    List.flatMap_map]
  congr 1
  apply List.flatMap_congr
  intro text htext
  exact arguments_asWord machine (hclean text htext).1 (hclean text htext).2

theorem argv_join {texts : List CodePoints} (hliteral : ∀ text ∈ texts, Literal fnmatch text) :
    argv machine (join texts) = some texts := by
  rw [argv_clean machine fun text htext => ⟨(hliteral text htext).toClean,
    (hliteral text htext).notTilde⟩]
  congr 1
  calc texts.flatMap (fun text => pathNames machine (asField text))
      = texts.flatMap (fun text => [text]) :=
        List.flatMap_congr fun text htext => pathNames_asField machine (hliteral text htext)
    _ = texts := List.flatMap_singleton' texts

/-- The first of several words is read before the others. -/
theorem argv_cons {text rest : CodePoints} (hliteral : Literal fnmatch text) :
    argv machine (text ++ ofChar ' ' :: rest) = (argv machine rest).map (text :: ·) := by
  have hstep : step machine .plain (some (asWord text)) (ofChar ' ') rest = .splits rest := by
    simp [step, kind_blank]
  rw [argv, List.length_append, List.length_cons, read_word machine hliteral.toClean, read, hstep]
  simp only [argv, Option.map_map]
  congr 1
  funext words
  rw [Function.comp_apply, Option.toList_some, List.singleton_append, List.flatMap_cons,
    arguments_asWord machine hliteral.toClean hliteral.notTilde,
    pathNames_asField machine hliteral]
  rfl

/-- The characters that are special in a word, wherever they stand. -/
def special : List Char :=
  ['\x00', '\t', '\n', ' ', '"', '$', '&', '\x27', '(', ')', '*', ';', '<', '>', '?', '[', '\\',
    '\x60', '|']

/-- A word without a special character that begins neither a comment nor a tilde. -/
def isPlain (chars : List Char) : Bool :=
  chars ≠ [] ∧ chars.head? ≠ some '#' ∧ chars.head? ≠ some '~' ∧
    chars.all fun char => char ∉ special

theorem ofChar_injective : Function.Injective ofChar := by
  intro first second heq
  have hchars := toChar?_ofChar first
  rw [heq, toChar?_ofChar] at hchars
  exact (Option.some.inj hchars).symm

theorem ordinary_of_notMem {char : Char} (hchar : char ∉ special) :
    kind (ofChar char) = .ordinary ∧ ofChar char ∉ ofString "*?[" := by
  have hmem : ∀ text : String, (∀ other ∈ text.toList, other ∈ special) →
      ofChar char ∉ ofString text := by
    intro text htext hin
    exact hchar (htext char ((List.mem_map_of_injective ofChar_injective).mp hin))
  have hne : ∀ other : Char, other ∈ special → ofChar char ≠ ofChar other :=
    fun other hother heq => hchar (ofChar_injective heq ▸ hother)
  refine ⟨?_, hmem _ (by simp [special])⟩
  unfold kind
  rw [if_neg (hmem _ (by simp [special])), if_neg (hmem _ (by simp [special])),
    if_neg (hne _ (by simp [special])), if_neg (hne _ (by simp [special])), if_neg (hne _ (by simp [special])),
    if_neg (hmem _ (by simp [special]))]

theorem literal_of_isPlain {chars : List Char} (hplain : isPlain chars = true) :
    Literal fnmatch (chars.map ofChar) := by
  simp only [isPlain, decide_eq_true_eq, List.all_eq_true] at hplain
  obtain ⟨hnonempty, hcomment, htilde, hchars⟩ := hplain
  have hhead : ∀ char : Char, chars.head? ≠ some char →
      (chars.map ofChar).head? ≠ some (ofChar char) := by
    intro char hne heq
    rw [List.head?_map, Option.map_eq_some_iff] at heq
    obtain ⟨first, hfirst, hsame⟩ := heq
    exact hne (hfirst.trans (congrArg some (ofChar_injective hsame)))
  refine ⟨⟨?_, ?_, hhead '#' hcomment⟩, hhead '~' htilde, ?_⟩
  · exact fun hnil => hnonempty (List.map_eq_nil_iff.mp hnil)
  · exact List.forall_mem_map.mpr fun char hchar => (ordinary_of_notMem (hchars char hchar)).1
  · intro hpattern
    obtain ⟨entry, hentry, hspecial⟩ := List.any_eq_true.mp hpattern
    obtain ⟨codePoint, hcodePoint, rfl⟩ := List.mem_map.mp hentry
    obtain ⟨char, hchar, rfl⟩ := List.mem_map.mp hcodePoint
    rw [Bool.not_false, Bool.true_and, decide_eq_true_eq] at hspecial
    exact absurd hspecial (ordinary_of_notMem (hchars char hchar)).2

/-! ### Nothing is gained on a bare machine -/

/-- Every expansion stands for nothing. -/
structure Bare : Prop where
  parameter : ∀ name, machine.parameter name = []
  substitute : ∀ opening text value rest, machine.substitute opening text = some (value, rest) →
    value = [] ∧ rest.length ≤ text.length
  unspecified : ∀ char, machine.unspecified char = []
  home : ∀ name, machine.home name = some []

def closing (opening : CodePoint) : CodePoint :=
  if opening = ofChar '(' then ofChar ')'
  else if opening = ofChar '\x7b' then ofChar '\x7d'
  else opening

/-- The bare machine with these path names. -/
def bare (found : Field → List CodePoints) (hnodup : ∀ pattern, (found pattern).Nodup)
    (hmatches : ∀ pattern, ∀ path ∈ found pattern, fnmatch pattern path = true) :
    Machine fnmatch where
  parameter _ := []
  substitute opening text :=
    match text.dropWhile (· ≠ closing opening) with
    | [] => none
    | _ :: rest => some ([], rest)
  unspecified _ := []
  home _ := some []
  found := found
  found_nodup := hnodup
  found_matches := hmatches

theorem bare_bare (found : Field → List CodePoints) (hnodup : ∀ pattern, (found pattern).Nodup)
    (hmatches : ∀ pattern, ∀ path ∈ found pattern, fnmatch pattern path = true) :
    Bare (bare found hnodup hmatches) where
  parameter _ := rfl
  unspecified _ := rfl
  home _ := rfl
  substitute := by
    intro opening text value rest hsubstitute
    have hlength := List.length_dropWhile_le (fun char => decide (char ≠ closing opening)) text
    simp only [bare] at hsubstitute
    split at hsubstitute
    case h_1 => cases hsubstitute
    case h_2 hrest =>
      cases hsubstitute
      rw [hrest, List.length_cons] at hlength
      exact ⟨rfl, by omega⟩

def Piece.length : Piece → ℕ
  | .char _ _ => 1
  | .value text _ => text.length

def wordLength (word : Word) : ℕ :=
  (word.map Piece.length).sum

/-- Words with a separator each. -/
def weight (words : List Word) : ℕ :=
  (words.map fun word => wordLength word + 1).sum

def carried (word : Option Word) : ℕ :=
  wordLength (word.getD []) + 1

/-- The quotation mark that is still to come. -/
def pending : Mode → ℕ
  | .plain => 0
  | .single | .double => 1

theorem carried_push (word : Option Word) (piece : Piece) :
    carried (push word piece) = carried word + piece.length := by
  simp only [carried, push, wordLength, Option.getD_some, List.map_append, List.sum_append,
    List.map_cons, List.map_nil, List.sum_cons, List.sum_nil]
  omega

theorem weight_append (first second : List Word) :
    weight (first ++ second) = weight first + weight second := by
  simp [weight]

variable {machine}

theorem expand_of_bare (hbare : Bare machine) {char : CodePoint} {text value rest : CodePoints}
    (hexpand : expand machine char text = some (value, rest)) :
    value = [] ∧ rest.length ≤ text.length := by
  unfold expand at hexpand
  split_ifs at hexpand with hbackquote
  · exact hbare.substitute _ _ _ _ hexpand
  · split at hexpand
    case h_1 =>
      cases hexpand
      exact ⟨hbare.unspecified char, le_rfl⟩
    case h_2 first rest =>
      split_ifs at hexpand with hopening hname hspecial
      · obtain ⟨hvalue, hlength⟩ := hbare.substitute _ _ _ _ hexpand
        exact ⟨hvalue, hlength.trans (Nat.le_succ _)⟩
      · cases hexpand
        exact ⟨hbare.parameter _, (List.length_dropWhile_le _ _).trans (Nat.le_succ _)⟩
      · cases hexpand
        exact ⟨hbare.parameter _, Nat.le_succ _⟩
      · cases hexpand
        exact ⟨hbare.unspecified char, le_rfl⟩

/-- A character that is read as itself. -/
structure Kept (mode mode' : Mode) (word word' : Option Word) (char : CodePoint)
    (text rest : CodePoints) : Prop where
  mode : mode = .plain
  mode' : mode' = .plain
  ordinary : kind char = .ordinary
  notComment : char = ofChar '#' → word ≠ none
  word' : word' = push word (.char char false)
  rest : rest = text

/-- On a bare machine a character that does not stand for itself is lost. -/
theorem step_goes (hbare : Bare machine) {mode mode' : Mode} {word word' : Option Word}
    {char : CodePoint} {text rest : CodePoints}
    (hstep : step machine mode word char text = .goes mode' word' rest) :
    Kept mode mode' word word' char text rest ∨
      carried word' + rest.length ≤ carried word + text.length + pending mode' := by
  have hexpansion : ∀ value rest quoted, expand machine char text = some (value, rest) →
      carried (push word (.value value quoted)) + rest.length ≤ carried word + text.length := by
    intro value rest quoted hexpand
    obtain ⟨rfl, hlength⟩ := expand_of_bare hbare hexpand
    rw [carried_push]
    exact Nat.add_le_add_left hlength _
  unfold step at hstep
  cases mode with
  | plain =>
      cases hkind : kind char with
      | blank | operator => simp [hkind] at hstep
      | apostrophe | quotationMark =>
          simp only [hkind, Step.goes.injEq] at hstep
          obtain ⟨rfl, rfl, rfl⟩ := hstep
          right
          simp [carried_push, Piece.length, pending]
      | backslash =>
          right
          simp only [hkind] at hstep
          split at hstep
          case h_1 =>
            obtain ⟨rfl, rfl, rfl⟩ := Step.goes.inj hstep
            simp [carried_push, Piece.length, hbare.unspecified]
          case h_2 next text =>
            split_ifs at hstep <;>
              obtain ⟨rfl, rfl, rfl⟩ := Step.goes.inj hstep <;>
              simp only [carried_push, Piece.length, List.length_cons] <;>
              omega
      | expansion =>
          right
          simp only [hkind] at hstep
          split at hstep
          case h_1 => cases hstep
          case h_2 value after hexpand =>
            obtain ⟨rfl, rfl, rfl⟩ := Step.goes.inj hstep
            exact hexpansion _ _ _ hexpand
      | ordinary =>
          left
          simp only [hkind] at hstep
          split_ifs at hstep with hcomment
          obtain ⟨rfl, rfl, rfl⟩ := Step.goes.inj hstep
          exact ⟨rfl, rfl, hkind, fun hhash hword => hcomment ⟨hhash, hword⟩, rfl, rfl⟩
  | single =>
      right
      simp only at hstep
      split_ifs at hstep <;>
        obtain ⟨rfl, rfl, rfl⟩ := Step.goes.inj hstep <;>
        simp only [carried_push, Piece.length, pending] <;>
        omega
  | double =>
      right
      cases hkind : kind char with
      | quotationMark =>
          simp only [hkind] at hstep
          obtain ⟨rfl, rfl, rfl⟩ := Step.goes.inj hstep
          exact Nat.le_add_right ..
      | backslash =>
          simp only [hkind] at hstep
          split at hstep
          case h_1 => cases hstep
          case h_2 next text =>
            split_ifs at hstep <;>
              obtain ⟨rfl, rfl, rfl⟩ := Step.goes.inj hstep <;>
              simp only [carried_push, Piece.length, List.length_cons, pending] <;>
              omega
      | expansion =>
          simp only [hkind] at hstep
          split at hstep
          case h_1 => cases hstep
          case h_2 value after hexpand =>
            obtain ⟨rfl, rfl, rfl⟩ := Step.goes.inj hstep
            exact Nat.le_add_right_of_le (hexpansion _ _ _ hexpand)
      | blank | operator | apostrophe | ordinary =>
          simp only [hkind] at hstep
          obtain ⟨rfl, rfl, rfl⟩ := Step.goes.inj hstep
          simp only [carried_push, Piece.length, pending]
          omega

theorem step_cases (machine : Machine fnmatch) (mode : Mode) (word : Option Word)
    (char : CodePoint) (text : CodePoints) :
    step machine mode word char text = .fails ∨
      (mode = .plain ∧ step machine mode word char text = .ends) ∨
      (mode = .plain ∧ step machine mode word char text = .splits text) ∨
      ∃ mode' word' rest, step machine mode word char text = .goes mode' word' rest := by
  unfold step
  cases mode with
  | plain =>
      cases hkind : kind char with
      | blank => simp
      | operator => simp
      | apostrophe | quotationMark => simp
      | backslash => cases text <;> simp only <;> [skip; split_ifs] <;> simp
      | expansion =>
          cases expand machine char text <;> simp
      | ordinary => simp only; split_ifs <;> simp
  | single => simp only; split_ifs <;> simp
  | double =>
      cases hkind : kind char with
      | backslash => cases text <;> simp only <;> [skip; split_ifs] <;> simp
      | expansion =>
          cases expand machine char text <;> simp
      | blank | operator | apostrophe | quotationMark | ordinary => simp

theorem weight_toList (word : Option Word) : weight word.toList ≤ carried word := by
  cases word with
  | none => exact Nat.zero_le _
  | some word => simp [weight, carried]

theorem read_nil (fuel : ℕ) (mode : Mode) (word : Option Word) :
    read machine fuel mode word [] = if mode = .plain then some word.toList else none := by
  cases fuel <;> rfl

theorem weight_of_read_nil {fuel : ℕ} {mode : Mode} {word : Option Word} {words : List Word}
    (hread : read machine fuel mode word [] = some words) :
    words = word.toList ∧ weight words + pending mode ≤ carried word := by
  rw [read_nil] at hread
  split_ifs at hread with hmode
  cases hread
  rw [hmode]
  exact ⟨rfl, weight_toList word⟩

theorem weight_of_read (hbare : Bare machine) {fuel : ℕ} {mode : Mode} {word : Option Word}
    {text : CodePoints} {words : List Word}
    (hread : read machine fuel mode word text = some words) :
    weight words + pending mode ≤ carried word + text.length := by
  induction fuel generalizing mode word text words with
  | zero =>
      cases text with
      | nil => exact (weight_of_read_nil hread).2
      | cons => cases hread
  | succ fuel ih =>
      cases text with
      | nil => exact (weight_of_read_nil hread).2
      | cons char text =>
          rw [read] at hread
          rw [List.length_cons]
          rcases step_cases machine mode word char text with
            hstep | ⟨rfl, hstep⟩ | ⟨rfl, hstep⟩ | ⟨mode', word', rest, hstep⟩ <;>
            rw [hstep] at hread
          · cases hread
          · cases hread
            exact Nat.zero_le _
          · obtain ⟨others, hothers, rfl⟩ := Option.map_eq_some_iff.mp hread
            have hweight := ih hothers
            have hword := weight_toList word
            rw [weight_append]
            change weight others + 0 ≤ 1 + text.length at hweight
            change _ + 0 ≤ _
            omega
          · have hweight := ih hread
            rcases step_goes hbare hstep with hkept | hlost
            · obtain ⟨rfl, rfl, -, -, rfl, rfl⟩ := hkept
              rw [carried_push] at hweight
              change weight words + 0 ≤ _ + 1 + _ at hweight
              change weight words + 0 ≤ _
              omega
            · have hpending : pending mode ≤ 1 := by cases mode <;> decide
              omega

theorem clean_push {word : Option Word} {char : CodePoint}
    (hword : ∀ first ∈ word, ∃ text, first = asWord text ∧ Clean text)
    (hordinary : kind char = .ordinary) (hcomment : char = ofChar '#' → word ≠ none) :
    ∀ first ∈ push word (.char char false), ∃ text, first = asWord text ∧ Clean text := by
  intro first hfirst
  rw [← Option.some.inj hfirst]
  cases word with
  | none =>
      refine ⟨[char], rfl, ⟨by simp, by simpa using hordinary, ?_⟩⟩
      exact fun hhash => hcomment (Option.some.inj hhash) rfl
  | some word =>
      obtain ⟨text, rfl, hclean⟩ := hword word rfl
      refine ⟨text ++ [char], by simp [asWord], by simp, ?_, ?_⟩
      · intro other hother
        rcases List.mem_append.mp hother with hin | hlast
        · exact hclean.ordinary other hin
        · rw [List.mem_singleton.mp hlast]
          exact hordinary
      · rw [List.head?_append_of_ne_nil _ hclean.nonempty]
        exact hclean.notComment

/-- Of a text that loses nothing every word is clean. -/
theorem clean_of_read (hbare : Bare machine) {fuel : ℕ} {word : Option Word} {text : CodePoints}
    {words : List Word} (hread : read machine fuel .plain word text = some words)
    (hfull : weight words = carried word + text.length)
    (hword : ∀ first ∈ word, ∃ text, first = asWord text ∧ Clean text) :
    ∀ first ∈ words, ∃ text, first = asWord text ∧ Clean text := by
  induction fuel generalizing word text words with
  | zero =>
      cases text with
      | nil =>
          rw [(weight_of_read_nil hread).1]
          simpa using hword
      | cons => cases hread
  | succ fuel ih =>
      cases text with
      | nil =>
          rw [(weight_of_read_nil hread).1]
          simpa using hword
      | cons char text =>
          rw [read] at hread
          rw [List.length_cons] at hfull
          rcases step_cases machine .plain word char text with
            hstep | ⟨-, hstep⟩ | ⟨-, hstep⟩ | ⟨mode, word', rest, hstep⟩ <;>
            rw [hstep] at hread
          · cases hread
          · cases hread
            simp
          · obtain ⟨others, hothers, rfl⟩ := Option.map_eq_some_iff.mp hread
            have hweight := weight_of_read hbare hothers
            have htoList := weight_toList word
            rw [weight_append] at hfull
            change weight others + 0 ≤ 1 + text.length at hweight
            have hrest : weight others = carried none + text.length := by
              change weight others = 1 + text.length
              omega
            intro first hfirst
            rcases List.mem_append.mp hfirst with hin | hin
            · exact hword first (by simpa using hin)
            · exact ih hothers hrest (by simp) first hin
          · rcases step_goes hbare hstep with hkept | hlost
            · obtain ⟨-, rfl, hordinary, hcomment, rfl, rfl⟩ := hkept
              refine ih hread ?_ (clean_push hword hordinary hcomment)
              rw [hfull, carried_push]
              change _ = _ + 1 + _
              omega
            · have hweight := weight_of_read hbare hread
              omega

/-! ### Nor between words and arguments -/

def size (texts : List CodePoints) : ℕ :=
  (texts.map fun text => text.length + 1).sum

theorem size_append (first second : List CodePoints) :
    size (first ++ second) = size first + size second := by
  simp [size]

def fieldsSize (fields : List Field) : ℕ :=
  (fields.map fun field => field.length + 1).sum

theorem fieldsSize_append (first second : List Field) :
    fieldsSize (first ++ second) = fieldsSize first + fieldsSize second := by
  simp [fieldsSize]

theorem fieldsSize_toList (field : Option Field) :
    fieldsSize field.toList ≤ (field.getD []).length + 1 := by
  cases field <;> simp [fieldsSize]

theorem fieldsSize_splitValue (field : Option Field) (text : CodePoints) :
    fieldsSize (splitValue field text).1 + ((splitValue field text).2.getD []).length ≤
      (field.getD []).length + text.length := by
  induction text generalizing field with
  | nil => simp [splitValue, fieldsSize]
  | cons char text ih =>
      rw [splitValue]
      split_ifs
      · have hnext := ih none
        have hfield := fieldsSize_toList field
        simp only [fieldsSize_append, List.length_cons]
        change _ ≤ 0 + _ at hnext
        omega
      · have hnext := ih (some (field.getD [] ++ [(char, false)]))
        simp only [Option.getD_some, List.length_append, List.length_cons, List.length_nil]
          at hnext ⊢
        omega

theorem fieldsSize_splitFields (field : Option Field) (word : Word) :
    fieldsSize (splitFields field word) ≤ (field.getD []).length + 1 + wordLength word := by
  induction word generalizing field with
  | nil => exact fieldsSize_toList field
  | cons piece word ih =>
      cases piece with
      | char char quoted =>
          have hnext := ih (some (field.getD [] ++ [(char, quoted)]))
          simp only [splitFields, wordLength, List.map_cons, List.sum_cons, Piece.length,
            Option.getD_some, List.length_append, List.length_cons, List.length_nil] at hnext ⊢
          omega
      | value text quoted =>
          cases quoted with
          | true =>
              have hnext := ih (some (field.getD [] ++ text.map fun char => (char, true)))
              simp only [splitFields, wordLength, List.map_cons, List.sum_cons, Piece.length,
                Option.getD_some, List.length_append, List.length_map] at hnext ⊢
              omega
          | false =>
              have hvalue := fieldsSize_splitValue field text
              have hnext := ih (splitValue field text).2
              simp only [splitFields, wordLength, List.map_cons, List.sum_cons, Piece.length,
                fieldsSize_append] at hnext ⊢
              omega

theorem wordLength_login {word after : Word} {name : CodePoints}
    (hlogin : login word = some (name, after)) : wordLength after ≤ wordLength word := by
  induction word generalizing name after with
  | nil =>
      cases hlogin
      exact le_rfl
  | cons piece word ih =>
      cases piece with
      | value => cases hlogin
      | char char quoted =>
          cases quoted with
          | true => cases hlogin
          | false =>
              rw [login] at hlogin
              split_ifs at hlogin
              · cases hlogin
                exact le_rfl
              · obtain ⟨found, hfound, heq⟩ := Option.map_eq_some_iff.mp hlogin
                cases heq
                exact (ih hfound).trans (Nat.le_add_left ..)

theorem wordLength_tilde (hbare : Bare machine) (word : Word) :
    wordLength (tilde machine word) ≤ wordLength word := by
  unfold tilde
  split
  case h_1 char rest =>
    split_ifs
    · cases hlogin : login rest with
      | none => exact le_rfl
      | some found =>
          have hafter := wordLength_login hlogin
          simp only [hbare.home]
          simp only [wordLength, List.map_cons, List.sum_cons, Piece.length, List.length_nil]
            at hafter ⊢
          omega
    · exact le_rfl
  case h_2 => exact le_rfl

theorem login_asWord (text : CodePoints) : (login (asWord text)).isSome = true := by
  induction text with
  | nil => rfl
  | cons char text ih =>
      rw [asWord, List.map_cons, login]
      split_ifs
      · rfl
      · rw [Option.isSome_map]
        exact ih

theorem wordLength_asWord (text : CodePoints) : wordLength (asWord text) = text.length := by
  induction text with
  | nil => rfl
  | cons char text ih =>
      simp only [wordLength, asWord, List.map_cons, List.sum_cons, Piece.length, List.length_cons]
        at ih ⊢
      omega

/-- A tilde is lost on a bare machine. -/
theorem wordLength_tilde_lt (hbare : Bare machine) {text : CodePoints}
    (htilde : text.head? = some (ofChar '~')) :
    wordLength (tilde machine (asWord text)) < wordLength (asWord text) := by
  cases text with
  | nil => cases htilde
  | cons char text =>
      cases Option.some.inj htilde
      obtain ⟨found, hfound⟩ := Option.isSome_iff_exists.mp (login_asWord text)
      have hafter := wordLength_login hfound
      have hword : tilde machine (asWord (ofChar '~' :: text)) = .value [] true :: found.2 := by
        simp only [asWord] at hfound
        simp [tilde, asWord, hfound, hbare.home]
      rw [hword, wordLength_asWord, List.length_cons]
      rw [wordLength_asWord] at hafter
      simp only [wordLength, List.map_cons, List.sum_cons, Piece.length, List.length_nil]
        at hafter ⊢
      omega

theorem size_arguments (hfound : ∀ pattern, machine.found pattern = []) (word : Word) :
    size (arguments machine word) ≤ wordLength (tilde machine word) + 1 := by
  have hpaths : pathNames machine = fun field => [field.map Prod.fst] := by
    funext field
    simp [pathNames, hfound]
  have hsize : ∀ fields : List Field,
      size (fields.flatMap fun field => [field.map Prod.fst]) = fieldsSize fields := by
    intro fields
    induction fields with
    | nil => rfl
    | cons field fields ih =>
        rw [List.flatMap_cons, size_append, ih]
        simp [size, fieldsSize]
  rw [arguments, hpaths, hsize]
  have hfields := fieldsSize_splitFields none (tilde machine word)
  simp only [Option.getD_none, List.length_nil] at hfields
  omega

theorem size_flatMap (words : List Word) (make : Word → List CodePoints) :
    size (words.flatMap make) = (words.map fun word => size (make word)).sum := by
  induction words with
  | nil => rfl
  | cons word words ih => rw [List.flatMap_cons, size_append, ih, List.map_cons, List.sum_cons]

theorem eq_of_sum_eq {words : List Word} {small large : Word → ℕ}
    (hle : ∀ word ∈ words, small word ≤ large word)
    (hsum : (words.map large).sum ≤ (words.map small).sum) :
    ∀ word ∈ words, small word = large word := by
  induction words with
  | nil => simp
  | cons word words ih =>
      obtain ⟨hword, hwords⟩ := List.forall_mem_cons.mp hle
      have hrest : (words.map small).sum ≤ (words.map large).sum := List.sum_le_sum hwords
      simp only [List.map_cons, List.sum_cons] at hsum
      exact List.forall_mem_cons.mpr ⟨by omega, ih hwords (by omega)⟩

theorem size_join {texts : List CodePoints} (hnonempty : texts ≠ []) :
    size texts = (join texts).length + 1 := by
  induction texts with
  | nil => exact absurd rfl hnonempty
  | cons text texts ih =>
      cases texts with
      | nil => simp [size, join]
      | cons next texts =>
          have hnext := ih (List.cons_ne_nil _ _)
          rw [join_cons_cons, List.length_append, List.length_cons]
          simp only [size, List.map_cons, List.sum_cons] at hnext ⊢
          omega

/-! ### Which words stand for themselves -/

/-- What a bare machine without files reads unchanged has no special character. -/
theorem clean_of_argv (hbare : Bare machine) (hfound : ∀ pattern, machine.found pattern = [])
    {texts : List CodePoints} (hargv : argv machine (join texts) = some texts) :
    ∀ text ∈ texts, Clean text ∧ text.head? ≠ some (ofChar '~') := by
  rcases eq_or_ne texts [] with rfl | hnonempty
  · simp
  obtain ⟨words, hread, htexts⟩ := Option.map_eq_some_iff.mp hargv
  have hweight := weight_of_read hbare hread
  have harguments : ∀ word ∈ words, size (arguments machine word) ≤ wordLength word + 1 :=
    fun word _ => (size_arguments hfound word).trans
      (Nat.add_le_add_right (wordLength_tilde hbare word) 1)
  have hsize := size_join hnonempty
  have hflat : size texts = (words.map fun word => size (arguments machine word)).sum := by
    rw [← htexts, size_flatMap]
  have hle : (words.map fun word => size (arguments machine word)).sum ≤ weight words :=
    List.sum_le_sum harguments
  change weight words + 0 ≤ 1 + _ at hweight
  have hclean := clean_of_read hbare hread (by change _ = 1 + _; omega) (by simp)
  have hequal := eq_of_sum_eq harguments (by change weight words ≤ _; omega)
  have htilde : ∀ text, asWord text ∈ words → text.head? ≠ some (ofChar '~') := by
    intro text hmem hhead
    have hlt := wordLength_tilde_lt hbare hhead
    have hsmall := size_arguments hfound (asWord text)
    have heq := hequal _ hmem
    omega
  intro text hmem
  rw [← htexts] at hmem
  obtain ⟨word, hword, hargument⟩ := List.mem_flatMap.mp hmem
  obtain ⟨source, rfl, hsource⟩ := hclean word hword
  rw [arguments_asWord machine hsource (htilde source hword), pathNames,
    if_neg fun hpattern => hpattern.2 (hfound _), map_fst_asField] at hargument
  rw [List.mem_singleton.mp hargument]
  exact ⟨hsource, htilde source hword⟩

/-- The bare machine without a path name. -/
def empty : Machine fnmatch :=
  bare (fun _ => []) (fun _ => List.nodup_nil) (by simp)

theorem bare_empty : Bare (empty : Machine fnmatch) :=
  bare_bare ..

instance nonempty_machine : Nonempty (Machine fnmatch) :=
  ⟨empty⟩

/-- The bare machine on which there is one path name, for one pattern. -/
def only (pattern : Field) (path : CodePoints) (hpath : fnmatch pattern path = true) :
    Machine fnmatch :=
  bare (fun field => if field = pattern then [path] else [])
    (by
      intro field
      split_ifs
      · exact List.nodup_singleton path
      · exact List.nodup_nil)
    (by
      intro field other hother
      split_ifs at hother with heq
      · rw [List.mem_singleton.mp hother, heq]
        exact hpath
      · cases hother)

theorem asField_inj {first second : CodePoints} :
    asField first = asField second ↔ first = second := by
  constructor
  · intro heq
    rw [← map_fst_asField first, heq, map_fst_asField]
  · exact congrArg asField

theorem pathNames_only {text path : CodePoints} (hpath : fnmatch (asField text) path = true)
    (hpattern : isPattern (asField text)) (other : CodePoints) :
    pathNames (only (asField text) path hpath) (asField other) =
      [if other = text then path else other] := by
  by_cases heq : other = text
  · subst heq
    simp [pathNames, only, bare, hpattern]
  · have hne : asField other ≠ asField text := fun h => heq (asField_inj.mp h)
    simp [pathNames, only, bare, hne, heq, map_fst_asField]

/-- The machines read a text of joined words back as these words exactly when each word stands for
itself. -/
theorem argv_join_iff (texts : List CodePoints) :
    (∀ machine : Machine fnmatch, argv machine (join texts) = some texts) ↔
      ∀ text ∈ texts, Literal fnmatch text := by
  constructor
  · intro hall
    have hclean := clean_of_argv bare_empty (fun _ => rfl) (hall empty)
    intro text htext
    obtain ⟨htextClean, htilde⟩ := hclean text htext
    refine ⟨htextClean, htilde, fun hpattern path hpath => ?_⟩
    have hread := hall (only (asField text) path hpath)
    rw [argv_clean _ hclean] at hread
    simp only [pathNames_only hpath hpattern] at hread
    have hmap : texts.map (fun other => if other = text then path else other) = texts.map id := by
      rw [List.map_id, List.map_eq_flatMap]
      exact Option.some.inj hread
    have hsame := List.map_inj_left.mp hmap text htext
    simpa using hsame
  · exact fun hliteral machine => argv_join machine hliteral

end Shell
