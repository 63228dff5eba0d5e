import Mathlib.Computability.Language

/-!
# Patterns over classes of characters

Regular expressions whose letters are classes, as two dialects may differ in a class and agree in
the rest. Matching is by derivatives, so it runs; a pattern's language says what it means.
-/

inductive Pattern (α : Type*) where
  | never
  | empty
  | one (accepts : α → Bool)
  | alt (first second : Pattern α)
  | seq (first second : Pattern α)
  | star (pattern : Pattern α)

namespace Pattern

variable {α : Type*}

def language : Pattern α → Language α
  | never => 0
  | empty => 1
  | one accepts => {string | ∃ char, accepts char = true ∧ string = [char]}
  | alt first second => first.language + second.language
  | seq first second => first.language * second.language
  | star pattern => KStar.kstar pattern.language

def nullable : Pattern α → Bool
  | never => false
  | empty => true
  | one _ => false
  | alt first second => first.nullable || second.nullable
  | seq first second => first.nullable && second.nullable
  | star _ => true

/-- What is left to match after one character. -/
def deriv (char : α) : Pattern α → Pattern α
  | never => never
  | empty => never
  | one accepts => if accepts char then empty else never
  | alt first second => alt (first.deriv char) (second.deriv char)
  | seq first second =>
      if first.nullable then alt (seq (first.deriv char) second) (second.deriv char)
      else seq (first.deriv char) second
  | star pattern => seq (pattern.deriv char) (star pattern)

/-- Whether the pattern matches the whole string. -/
def accepts (pattern : Pattern α) : List α → Bool
  | [] => pattern.nullable
  | char :: string => (pattern.deriv char).accepts string

/-! ### What a pattern means -/

theorem mem_language_one {accepts : α → Bool} {string : List α} :
    string ∈ (one accepts).language ↔ ∃ char, accepts char = true ∧ string = [char] :=
  Iff.rfl

theorem nullable_iff (pattern : Pattern α) : pattern.nullable = true ↔ [] ∈ pattern.language := by
  induction pattern with
  | never => simp [nullable, language, Language.notMem_zero]
  | empty => simp [nullable, language]
  | one accepts => simp [nullable, mem_language_one]
  | alt first second ihfirst ihsecond =>
      rw [nullable, language, Bool.or_eq_true, ihfirst, ihsecond, Language.mem_add]
  | seq first second ihfirst ihsecond =>
      rw [nullable, language, Bool.and_eq_true, ihfirst, ihsecond, Language.mem_mul]
      constructor
      · intro ⟨hfirst, hsecond⟩
        exact ⟨[], hfirst, [], hsecond, rfl⟩
      · rintro ⟨before, hbefore, after, hafter, happend⟩
        obtain ⟨rfl, rfl⟩ := List.append_eq_nil_iff.mp happend
        exact ⟨hbefore, hafter⟩
  | star pattern _ => simp [nullable, language, Language.nil_mem_kstar]

theorem cons_mem_mul {first second : Language α} {char : α} {string : List α} :
    char :: string ∈ first * second ↔
      (∃ before after, char :: before ∈ first ∧ after ∈ second ∧ before ++ after = string) ∨
        ([] ∈ first ∧ char :: string ∈ second) := by
  rw [Language.mem_mul]
  constructor
  · rintro ⟨before, hbefore, after, hafter, happend⟩
    cases before with
    | nil => exact Or.inr ⟨hbefore, happend ▸ hafter⟩
    | cons head before =>
        obtain ⟨rfl, rfl⟩ := List.cons_eq_cons.mp happend
        exact Or.inl ⟨before, after, hbefore, hafter, rfl⟩
  · rintro (⟨before, after, hbefore, hafter, rfl⟩ | ⟨hfirst, hsecond⟩)
    · exact ⟨char :: before, hbefore, after, hafter, rfl⟩
    · exact ⟨[], hfirst, char :: string, hsecond, rfl⟩

theorem cons_mem_kstar {language : Language α} {char : α} {string : List α} :
    char :: string ∈ KStar.kstar language ↔
      ∃ before after, char :: before ∈ language ∧ after ∈ KStar.kstar language ∧
        before ++ after = string := by
  constructor
  · intro hmem
    obtain ⟨words, hwords, hall⟩ := Language.mem_kstar_iff_exists_nonempty.mp hmem
    cases words with
    | nil => cases hwords
    | cons word words =>
        obtain ⟨⟨hword, hne⟩, hrest⟩ := List.forall_mem_cons.mp hall
        cases word with
        | nil => exact absurd rfl hne
        | cons head before =>
            obtain ⟨rfl, rfl⟩ := List.cons_eq_cons.mp hwords
            refine ⟨before, words.flatten, hword, ?_, rfl⟩
            exact Language.mem_kstar_iff_exists_nonempty.mpr ⟨words, rfl, hrest⟩
  · rintro ⟨before, after, hbefore, hafter, rfl⟩
    obtain ⟨words, rfl, hall⟩ := Language.mem_kstar.mp hafter
    refine Language.mem_kstar.mpr ⟨(char :: before) :: words, rfl, ?_⟩
    exact List.forall_mem_cons.mpr ⟨hbefore, hall⟩

theorem mem_language_deriv (pattern : Pattern α) (char : α) (string : List α) :
    string ∈ (pattern.deriv char).language ↔ char :: string ∈ pattern.language := by
  induction pattern generalizing string with
  | never => exact Iff.rfl
  | empty => simp [deriv, language, Language.notMem_zero, Language.mem_one]
  | one accepts =>
      rw [mem_language_one, deriv]
      by_cases haccepts : accepts char = true
      · rw [if_pos haccepts, language, Language.mem_one]
        constructor
        · rintro rfl
          exact ⟨char, haccepts, rfl⟩
        · rintro ⟨other, _, hstring⟩
          exact (List.cons_eq_cons.mp hstring).2
      · rw [if_neg haccepts, language]
        constructor
        · intro hmem
          exact absurd hmem (Language.notMem_zero string)
        · rintro ⟨other, hother, hstring⟩
          obtain ⟨rfl, _⟩ := List.cons_eq_cons.mp hstring
          exact absurd hother haccepts
  | alt first second ihfirst ihsecond =>
      rw [deriv, language, language, Language.mem_add, Language.mem_add, ihfirst, ihsecond]
  | seq first second ihfirst ihsecond =>
      have hseq : string ∈ (first.deriv char).language * second.language ↔
          ∃ before after, char :: before ∈ first.language ∧ after ∈ second.language ∧
            before ++ after = string := by
        rw [Language.mem_mul]
        constructor
        · rintro ⟨before, hbefore, after, hafter, happend⟩
          exact ⟨before, after, (ihfirst before).mp hbefore, hafter, happend⟩
        · rintro ⟨before, after, hbefore, hafter, happend⟩
          exact ⟨before, (ihfirst before).mpr hbefore, after, hafter, happend⟩
      rw [deriv, language, cons_mem_mul]
      by_cases hnullable : first.nullable = true
      · rw [if_pos hnullable, language, language, Language.mem_add, hseq, ihsecond]
        have hempty := (nullable_iff first).mp hnullable
        simp only [hempty, true_and]
      · rw [if_neg hnullable, language, hseq]
        rw [nullable_iff] at hnullable
        simp only [hnullable, false_and, or_false]
  | star pattern ih =>
      rw [deriv, language, language, cons_mem_kstar, Language.mem_mul]
      constructor
      · rintro ⟨before, hbefore, after, hafter, happend⟩
        exact ⟨before, after, (ih before).mp hbefore, hafter, happend⟩
      · rintro ⟨before, after, hbefore, hafter, happend⟩
        exact ⟨before, (ih before).mpr hbefore, after, hafter, happend⟩

theorem accepts_iff (pattern : Pattern α) (string : List α) :
    pattern.accepts string = true ↔ string ∈ pattern.language := by
  induction string generalizing pattern with
  | nil => rw [accepts, nullable_iff]
  | cons char string ih => rw [accepts, ih, mem_language_deriv]

/-! ### Putting patterns together -/

theorem accepts_seq {first second : Pattern α} {before after : List α}
    (hfirst : first.accepts before = true) (hsecond : second.accepts after = true) :
    (seq first second).accepts (before ++ after) = true := by
  rw [accepts_iff] at *
  exact Language.append_mem_mul hfirst hsecond

/-- One pattern after the other. -/
def seqs : List (Pattern α) → Pattern α
  | [] => empty
  | pattern :: patterns => seq pattern (seqs patterns)

def optional (pattern : Pattern α) : Pattern α :=
  alt empty pattern

def many1 (pattern : Pattern α) : Pattern α :=
  seq pattern (star pattern)

def times (pattern : Pattern α) : Nat → Pattern α
  | 0 => empty
  | count + 1 => seq pattern (times pattern count)

/-- Between one and `most + 1` times. -/
def upTo (pattern : Pattern α) : Nat → Pattern α
  | 0 => pattern
  | most + 1 => seq pattern (optional (upTo pattern most))

/-- A string ends in what the last pattern accepts. -/
theorem getLast?_of_mem_seqs {patterns : List (Pattern α)} {accepts : α → Bool} {string : List α}
    (hmem : string ∈ (seqs (patterns ++ [one accepts])).language) :
    ∃ char, accepts char = true ∧ string.getLast? = some char := by
  induction patterns generalizing string with
  | nil =>
      obtain ⟨before, ⟨char, hchar, rfl⟩, after, hafter, rfl⟩ := Language.mem_mul.mp hmem
      rw [seqs, language, Language.mem_one] at hafter
      rw [hafter]
      exact ⟨char, hchar, rfl⟩
  | cons pattern patterns ih =>
      obtain ⟨before, _, after, hafter, rfl⟩ := Language.mem_mul.mp hmem
      obtain ⟨char, hchar, hlast⟩ := ih hafter
      exact ⟨char, hchar, by rw [List.getLast?_append, hlast, Option.some_or]⟩

theorem accepts_times {accept : α → Bool} {string : List α}
    (hall : ∀ char ∈ string, accept char = true) :
    ((one accept).times string.length).accepts string = true := by
  induction string with
  | nil => rfl
  | cons char string ih =>
      obtain ⟨hchar, hstring⟩ := List.forall_mem_cons.mp hall
      rw [← List.singleton_append, List.length_append, List.length_singleton, Nat.add_comm]
      refine accepts_seq ?_ (ih hstring)
      simp [accepts, deriv, hchar, nullable]

theorem accepts_optional {pattern : Pattern α} {string : List α}
    (haccepts : pattern.accepts string = true) : pattern.optional.accepts string = true := by
  rw [accepts_iff] at *
  exact (Language.mem_add _ _ _).mpr (Or.inr haccepts)

theorem accepts_upTo {accept : α → Bool} {string : List α} {most : Nat} (hpos : 0 < string.length)
    (hle : string.length ≤ most + 1) (hall : ∀ char ∈ string, accept char = true) :
    ((one accept).upTo most).accepts string = true := by
  induction most generalizing string with
  | zero =>
      obtain ⟨char, rfl⟩ := List.length_eq_one_iff.mp (le_antisymm hle hpos)
      exact (accepts_iff _ _).mpr ⟨char, hall char List.mem_cons_self, rfl⟩
  | succ most ih =>
      cases string with
      | nil => cases hpos
      | cons char string =>
          obtain ⟨hchar, hstring⟩ := List.forall_mem_cons.mp hall
          rw [← List.singleton_append]
          refine accepts_seq ((accepts_iff _ _).mpr ⟨char, hchar, rfl⟩) ?_
          rcases Nat.eq_zero_or_pos string.length with hzero | hpos
          · rw [List.length_eq_zero_iff.mp hzero]
            rfl
          · exact accepts_optional (ih hpos (Nat.le_of_succ_le_succ hle) hstring)

/-! ### Narrowing the classes -/

/-- Every class also asks for this. -/
def restrict (keep : α → Bool) : Pattern α → Pattern α
  | never => never
  | empty => empty
  | one accepts => one fun char => accepts char && keep char
  | alt first second => alt (first.restrict keep) (second.restrict keep)
  | seq first second => seq (first.restrict keep) (second.restrict keep)
  | star pattern => star (pattern.restrict keep)

theorem mem_language_restrict (keep : α → Bool) (pattern : Pattern α) (string : List α) :
    string ∈ (pattern.restrict keep).language ↔
      string ∈ pattern.language ∧ ∀ char ∈ string, keep char = true := by
  induction pattern generalizing string with
  | never => simp [restrict, language, Language.notMem_zero]
  | empty =>
      rw [restrict, language, Language.mem_one]
      constructor
      · rintro rfl
        exact ⟨rfl, fun _ hmem => by cases hmem⟩
      · exact And.left
  | one accepts =>
      rw [restrict, mem_language_one, mem_language_one]
      constructor
      · rintro ⟨char, hchar, rfl⟩
        obtain ⟨haccepts, hkeep⟩ := Bool.and_eq_true_iff.mp hchar
        exact ⟨⟨char, haccepts, rfl⟩, List.forall_mem_singleton.mpr hkeep⟩
      · rintro ⟨⟨char, haccepts, rfl⟩, hkeep⟩
        rw [List.forall_mem_singleton] at hkeep
        exact ⟨char, Bool.and_eq_true_iff.mpr ⟨haccepts, hkeep⟩, rfl⟩
  | alt first second ihfirst ihsecond =>
      rw [restrict, language, language, Language.mem_add, Language.mem_add, ihfirst, ihsecond,
        or_and_right]
  | seq first second ihfirst ihsecond =>
      rw [restrict, language, language, Language.mem_mul, Language.mem_mul]
      constructor
      · rintro ⟨before, hbefore, after, hafter, rfl⟩
        obtain ⟨hbefore, hkeep⟩ := (ihfirst before).mp hbefore
        obtain ⟨hafter, hkeep'⟩ := (ihsecond after).mp hafter
        exact ⟨⟨before, hbefore, after, hafter, rfl⟩, List.forall_mem_append.mpr ⟨hkeep, hkeep'⟩⟩
      · rintro ⟨⟨before, hbefore, after, hafter, rfl⟩, hkeep⟩
        obtain ⟨hkeep, hkeep'⟩ := List.forall_mem_append.mp hkeep
        exact ⟨before, (ihfirst before).mpr ⟨hbefore, hkeep⟩, after,
          (ihsecond after).mpr ⟨hafter, hkeep'⟩, rfl⟩
  | star pattern ih =>
      rw [restrict, language, language, Language.mem_kstar, Language.mem_kstar]
      constructor
      · rintro ⟨words, rfl, hall⟩
        refine ⟨⟨words, rfl, fun word hword => ((ih word).mp (hall word hword)).1⟩, ?_⟩
        intro char hmem
        obtain ⟨word, hword, hchar⟩ := List.mem_flatten.mp hmem
        exact ((ih word).mp (hall word hword)).2 char hchar
      · rintro ⟨⟨words, rfl, hall⟩, hkeep⟩
        refine ⟨words, rfl, ?_⟩
        intro word hword
        refine (ih word).mpr ⟨hall word hword, ?_⟩
        intro char hchar
        exact hkeep char (List.mem_flatten.mpr ⟨word, hword, hchar⟩)

/-- The narrowed pattern matches just the strings of the pattern that keep to the narrower
classes. -/
theorem accepts_restrict (keep : α → Bool) (pattern : Pattern α) (string : List α) :
    (pattern.restrict keep).accepts string = true ↔
      pattern.accepts string = true ∧ ∀ char ∈ string, keep char = true := by
  rw [accepts_iff, accepts_iff, mem_language_restrict]

/-- Every class asks for this as it is. -/
def Within (keep : α → Bool) : Pattern α → Prop
  | never => True
  | empty => True
  | one accepts => ∀ char, accepts char = true → keep char = true
  | alt first second => first.Within keep ∧ second.Within keep
  | seq first second => first.Within keep ∧ second.Within keep
  | star pattern => pattern.Within keep

theorem restrict_eq_self {keep : α → Bool} {pattern : Pattern α} (hwithin : pattern.Within keep) :
    pattern.restrict keep = pattern := by
  induction pattern with
  | never => rfl
  | empty => rfl
  | one accepts =>
      rw [restrict]
      congr 1
      funext char
      cases haccepts : accepts char with
      | false => rfl
      | true => rw [hwithin char haccepts, Bool.and_self]
  | alt first second ihfirst ihsecond =>
      rw [restrict, ihfirst hwithin.1, ihsecond hwithin.2]
  | seq first second ihfirst ihsecond =>
      rw [restrict, ihfirst hwithin.1, ihsecond hwithin.2]
  | star pattern ih => rw [restrict, ih hwithin]

theorem forall_of_accepts {keep : α → Bool} {pattern : Pattern α} {string : List α}
    (hwithin : pattern.Within keep) (haccepts : pattern.accepts string = true) :
    ∀ char ∈ string, keep char = true := by
  rw [← restrict_eq_self hwithin] at haccepts
  exact ((accepts_restrict keep pattern string).mp haccepts).2

section Within

variable {keep : α → Bool} {pattern other : Pattern α}

theorem within_nil : (seqs ([] : List (Pattern α))).Within keep :=
  trivial

theorem Within.cons {patterns : List (Pattern α)} (hpattern : pattern.Within keep)
    (hpatterns : (seqs patterns).Within keep) : (seqs (pattern :: patterns)).Within keep :=
  ⟨hpattern, hpatterns⟩

theorem Within.optional (hpattern : pattern.Within keep) : pattern.optional.Within keep :=
  ⟨trivial, hpattern⟩

theorem Within.many1 (hpattern : pattern.Within keep) : pattern.many1.Within keep :=
  ⟨hpattern, hpattern⟩

theorem Within.times (hpattern : pattern.Within keep) (count : Nat) :
    (pattern.times count).Within keep := by
  induction count with
  | zero => trivial
  | succ count ih => exact ⟨hpattern, ih⟩

theorem Within.upTo (hpattern : pattern.Within keep) (most : Nat) :
    (pattern.upTo most).Within keep := by
  induction most with
  | zero => exact hpattern
  | succ most ih => exact ⟨hpattern, trivial, ih⟩

end Within

/-! ### Lengths -/

/-- The length no match goes beyond, if there is one. -/
def longest : Pattern α → Option Nat
  | never => some 0
  | empty => some 0
  | one _ => some 1
  | alt first second => first.longest.bind fun most => second.longest.map (max most)
  | seq first second => first.longest.bind fun most => second.longest.map (most + ·)
  | star _ => none

theorem length_le_of_mem {pattern : Pattern α} {string : List α} {most : Nat}
    (hmost : pattern.longest = some most) (hmem : string ∈ pattern.language) :
    string.length ≤ most := by
  induction pattern generalizing string most with
  | never => exact absurd hmem (Language.notMem_zero string)
  | empty =>
      rw [language, Language.mem_one] at hmem
      rw [hmem]
      exact Nat.zero_le most
  | one accepts =>
      obtain ⟨char, _, rfl⟩ := hmem
      cases hmost
      exact le_rfl
  | alt first second ihfirst ihsecond =>
      obtain ⟨left, hleft, hmost⟩ := Option.bind_eq_some_iff.mp hmost
      obtain ⟨right, hright, rfl⟩ := Option.map_eq_some_iff.mp hmost
      rcases (Language.mem_add _ _ _).mp hmem with hmem | hmem
      · exact (ihfirst hleft hmem).trans (le_max_left _ _)
      · exact (ihsecond hright hmem).trans (le_max_right _ _)
  | seq first second ihfirst ihsecond =>
      obtain ⟨left, hleft, hmost⟩ := Option.bind_eq_some_iff.mp hmost
      obtain ⟨right, hright, rfl⟩ := Option.map_eq_some_iff.mp hmost
      obtain ⟨before, hbefore, after, hafter, rfl⟩ := Language.mem_mul.mp hmem
      rw [List.length_append]
      exact Nat.add_le_add (ihfirst hleft hbefore) (ihsecond hright hafter)
  | star pattern _ => cases hmost

end Pattern
