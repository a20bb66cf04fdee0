import KernelLake.Library.Patterns

/-!
The matcher of file names.

The loop walks through the pattern and the text. A `*` is remembered with the place where it was met, and a
mismatch goes back to the last one. A character of the pattern is compared with the text before it is taken
for a wildcard: a `*` that meets a `*` in the text is consumed with it and is not remembered.
-/

namespace KernelLake.GlobMatching

open KernelLake.Library.Patterns

/-- `*` and `?`. -/
def globSymbols : Wildcards UInt8 := ⟨42, 63, by decide⟩

/-! ## The loop -/

/-- What is left of the pattern and of the text, and for the last remembered `*` what follows it in the
pattern and the text from where it was met or last tried. -/
structure Matcher where
  pattern : List UInt8
  text : List UInt8
  star : Option (List UInt8 × List UInt8)
  behind : ∀ saved ∈ star, text.length ≤ saved.2.length

/-- The last `*` takes one more character. Without any the match has failed. -/
def backtrack (matcher : Matcher) : Matcher ⊕ Bool :=
  match matcher.star with
  | some (pattern, _ :: text) => .inl ⟨pattern, text, some (pattern, text), by simp⟩
  | _ => .inr false

/-- One pass of the loop, or the answer. -/
def step (matcher : Matcher) : Matcher ⊕ Bool :=
  match remaining : matcher.text with
  | [] => .inr (matcher.pattern.dropWhile (· = globSymbols.many)).isEmpty
  | character :: text =>
    match matcher.pattern with
    | [] => backtrack matcher
    | symbol :: pattern =>
      if globSymbols.Accepts symbol character then
        .inl ⟨pattern, text, matcher.star, fun saved isSaved => by
          have behind := matcher.behind saved isSaved
          rw [remaining, List.length_cons] at behind
          omega⟩
      else if symbol = globSymbols.many then
        .inl ⟨pattern, character :: text, some (pattern, character :: text), by simp⟩
      else backtrack matcher

/-- How far the remembered `*` can still go, and how far the walk can. -/
def measure (matcher : Matcher) : Nat × Nat :=
  (matcher.star.elim (matcher.text.length + 1) (fun saved => saved.2.length),
    matcher.text.length + matcher.pattern.length)

theorem backtrack_decreases {matcher next : Matcher} (stepped : backtrack matcher = .inl next) :
    Prod.Lex (· < ·) (· < ·) (measure next) (measure matcher) := by
  unfold backtrack at stepped
  split at stepped
  · rename_i pattern character text saved
    obtain rfl := Sum.inl.inj stepped
    apply Prod.Lex.left
    simp [saved]
  · cases stepped

theorem step_decreases {matcher next : Matcher} (stepped : step matcher = .inl next) :
    Prod.Lex (· < ·) (· < ·) (measure next) (measure matcher) := by
  obtain ⟨pattern, text, star, behind⟩ := matcher
  unfold step at stepped
  split at stepped
  · cases stepped
  · rename_i character text remaining
    simp only at remaining
    subst remaining
    split at stepped
    · exact backtrack_decreases stepped
    · rename_i symbol pattern isPattern
      simp only at isPattern
      subst isPattern
      split at stepped
      · obtain rfl := Sum.inl.inj stepped
        cases star with
        | none => exact .left _ _ (by simp)
        | some saved => exact .right _ (by simp; omega)
      · split at stepped
        · obtain rfl := Sum.inl.inj stepped
          cases star with
          | none => exact .left _ _ (by simp)
          | some saved =>
            rcases Nat.lt_or_eq_of_le (behind saved rfl) with sooner | same
            · exact .left _ _ sooner
            · simp only [measure, Option.elim_some, ← same]
              exact .right _ (by simp)
        · exact backtrack_decreases stepped

def run (matcher : Matcher) : Bool :=
  match _ : step matcher with
  | .inr answer => answer
  | .inl next => run next
termination_by measure matcher
decreasing_by exact step_decreases ‹_›

def globMatch (pattern text : List UInt8) : Bool :=
  run ⟨pattern, text, none, by simp⟩

/-! ## Stars that stand alone -/

/-- A `*` at a place where the text has a `*` stands for that character alone. -/
def StandsAlone : List UInt8 → List (List UInt8) → Prop
  | symbol :: pattern, part :: parts =>
    (symbol = globSymbols.many → (part ++ parts.flatten).head? = some globSymbols.many →
      part = [globSymbols.many]) ∧ StandsAlone pattern parts
  | _, _ => True

/-- The language of a pattern with its stars standing alone. -/
def MatchesAlone (pattern text : List UInt8) : Prop :=
  ∃ parts, List.Forall₂ globSymbols.Replaces pattern parts ∧ parts.flatten = text ∧ StandsAlone pattern parts

theorem matches_of_alone {pattern text : List UInt8} (alone : MatchesAlone pattern text) :
    globSymbols.Matches pattern text := by
  obtain ⟨parts, replaced, joined, _⟩ := alone
  exact ⟨parts, replaced, joined⟩

theorem alone_nil (text : List UInt8) : MatchesAlone [] text ↔ text = [] := by
  constructor
  · intro alone
    exact (globSymbols.matches_nil text).mp (matches_of_alone alone)
  · rintro rfl
    exact ⟨[], .nil, rfl, trivial⟩

theorem alone_cons (symbol : UInt8) (pattern text : List UInt8) :
    MatchesAlone (symbol :: pattern) text ↔
      ∃ part rest, text = part ++ rest ∧ globSymbols.Replaces symbol part ∧
        (symbol = globSymbols.many → text.head? = some globSymbols.many → part = [globSymbols.many]) ∧
        MatchesAlone pattern rest := by
  constructor
  · rintro ⟨parts, replaced, rfl, stands⟩
    obtain ⟨part, others, first, rest, rfl⟩ := List.forall₂_cons_left_iff.mp replaced
    exact ⟨part, others.flatten, List.flatten_cons, first, stands.1, others, rest, rfl, stands.2⟩
  · rintro ⟨part, rest, rfl, first, stands, others, replaced, rfl, stand⟩
    exact ⟨part :: others, .cons first replaced, List.flatten_cons, stands, stand⟩

theorem alone_symbol {symbol : UInt8} (plain : symbol ≠ globSymbols.many) (pattern text : List UInt8) :
    MatchesAlone (symbol :: pattern) text ↔
      ∃ character rest, text = character :: rest ∧ globSymbols.Accepts symbol character ∧
        MatchesAlone pattern rest := by
  rw [alone_cons]
  constructor
  · rintro ⟨part, rest, rfl, replaced, _, alone⟩
    obtain ⟨character, rfl, accepted⟩ := (globSymbols.replaces_symbol plain part).mp replaced
    exact ⟨character, rest, rfl, accepted, alone⟩
  · rintro ⟨character, rest, rfl, accepted, alone⟩
    exact ⟨[character], rest, rfl, (globSymbols.replaces_symbol plain _).mpr ⟨character, rfl, accepted⟩,
      fun isMany => absurd isMany plain, alone⟩

theorem alone_star_star (pattern text : List UInt8) :
    MatchesAlone (globSymbols.many :: pattern) (globSymbols.many :: text) ↔ MatchesAlone pattern text := by
  rw [alone_cons]
  constructor
  · rintro ⟨part, rest, joined, _, stands, alone⟩
    rw [stands rfl rfl] at joined
    obtain rfl := (List.cons.inj joined).2
    exact alone
  · intro alone
    exact ⟨[globSymbols.many], text, rfl, globSymbols.replaces_many _, fun _ _ => rfl, alone⟩

theorem alone_star {text : List UInt8} (elsewhere : text.head? ≠ some globSymbols.many) (pattern : List UInt8) :
    MatchesAlone (globSymbols.many :: pattern) text ↔ ∃ rest, rest <:+ text ∧ MatchesAlone pattern rest := by
  rw [alone_cons]
  constructor
  · rintro ⟨part, rest, rfl, _, _, alone⟩
    exact ⟨rest, List.suffix_append part rest, alone⟩
  · rintro ⟨rest, ⟨part, rfl⟩, alone⟩
    exact ⟨part, rest, rfl, globSymbols.replaces_many part, fun _ starts => absurd starts elsewhere, alone⟩

/-- Whatever a star stands for, the rest of the pattern gets a suffix. -/
theorem suffix_of_alone_star {pattern text : List UInt8}
    (alone : MatchesAlone (globSymbols.many :: pattern) text) :
    ∃ rest, rest <:+ text ∧ MatchesAlone pattern rest := by
  obtain ⟨part, rest, rfl, _, _, alone⟩ := (alone_cons _ _ _).mp alone
  exact ⟨rest, List.suffix_append part rest, alone⟩

theorem alone_empty (pattern : List UInt8) :
    MatchesAlone pattern [] ↔ (pattern.dropWhile (· = globSymbols.many)).isEmpty = true := by
  induction pattern with
  | nil => simp [alone_nil]
  | cons symbol pattern hypothesis =>
    by_cases isMany : symbol = globSymbols.many
    · subst isMany
      rw [alone_star (by simp), List.dropWhile_cons_of_pos (by simp), ← hypothesis]
      simp
    · rw [alone_symbol isMany, List.dropWhile_cons_of_neg (by simpa using isMany)]
      simp

/-! ## Going back to the last star only -/

/-- A stretch of the pattern that was compared character by character. -/
abbrev Compared (pattern text : List UInt8) : Prop :=
  List.Forall₂ globSymbols.Accepts pattern text

theorem many_accepts {character : UInt8} (accepted : globSymbols.Accepts globSymbols.many character) :
    character = globSymbols.many := by
  rcases accepted with isOne | same
  · exact absurd isOne globSymbols.distinct
  · exact same.symm

theorem alone_accepted {symbol character : UInt8} (accepted : globSymbols.Accepts symbol character)
    (pattern text : List UInt8) :
    MatchesAlone (symbol :: pattern) (character :: text) ↔ MatchesAlone pattern text := by
  by_cases isMany : symbol = globSymbols.many
  · subst isMany
    rw [many_accepts accepted, alone_star_star]
  · rw [alone_symbol isMany]
    constructor
    · rintro ⟨_, _, same, _, alone⟩
      obtain ⟨rfl, rfl⟩ := List.cons.inj same
      exact alone
    · intro alone
      exact ⟨character, text, rfl, accepted, alone⟩

theorem alone_compared {compared walked : List UInt8} (same : Compared compared walked)
    (pattern text : List UInt8) :
    MatchesAlone (compared ++ pattern) (walked ++ text) ↔ MatchesAlone pattern text := by
  induction same with
  | nil => rfl
  | cons accepted _ hypothesis => exact (alone_accepted accepted _ _).trans hypothesis

/-- After a stretch has been compared up to the end of the text, or up to a star that will be remembered,
nothing is lost by not starting the stretch at a later place. -/
theorem later_start {compared walked : List UInt8} (same : Compared compared walked) {pattern text later : List UInt8}
    (settled : text = [] ∨ ∃ rest, pattern = globSymbols.many :: rest ∧ text.head? ≠ some globSymbols.many)
    (suffix : later <:+ walked ++ text) (alone : MatchesAlone (compared ++ pattern) later) :
    MatchesAlone pattern text := by
  induction same generalizing later with
  | nil =>
    rcases settled with rfl | ⟨rest, rfl, elsewhere⟩
    · obtain rfl := List.suffix_nil.mp suffix
      exact alone
    · obtain ⟨shorter, shorterSuffix, alone⟩ := suffix_of_alone_star alone
      exact (alone_star elsewhere rest).mpr ⟨shorter, shorterSuffix.trans suffix, alone⟩
  | @cons symbol character compared walked accepted same hypothesis =>
    rcases List.suffix_cons_iff.mp suffix with rfl | suffix
    · exact (alone_compared (.cons accepted same) pattern text).mp alone
    · by_cases isMany : symbol = globSymbols.many
      · subst isMany
        obtain ⟨shorter, shorterSuffix, alone⟩ := suffix_of_alone_star alone
        exact hypothesis (shorterSuffix.trans suffix) alone
      · obtain ⟨first, shorter, rfl, _, alone⟩ := (alone_symbol isMany _ _).mp alone
        exact hypothesis ((List.suffix_cons first shorter).trans suffix) alone

/-- What was walked through since the last star was met was compared. -/
def Tracks (matcher : Matcher) : Prop :=
  ∀ saved ∈ matcher.star, ∃ compared walked, saved.1 = compared ++ matcher.pattern ∧
    saved.2 = walked ++ matcher.text ∧ Compared compared walked

/-- What the loop still looks for: a match from here on, or one from a later place after the last star. -/
def Hopes (matcher : Matcher) : Prop :=
  MatchesAlone matcher.pattern matcher.text ∨
    ∃ saved ∈ matcher.star, ∃ later, later <:+ saved.2 ∧ later ≠ saved.2 ∧ MatchesAlone saved.1 later

/-- At the end of the text, or at a star to be remembered, a match is one from here on. -/
theorem hopes_settled {matcher : Matcher} (tracks : Tracks matcher)
    (settled : matcher.text = [] ∨
      ∃ rest, matcher.pattern = globSymbols.many :: rest ∧ matcher.text.head? ≠ some globSymbols.many) :
    Hopes matcher ↔ MatchesAlone matcher.pattern matcher.text := by
  constructor
  · rintro (alone | ⟨saved, isSaved, later, suffix, _, alone⟩)
    · exact alone
    · obtain ⟨compared, walked, samePattern, sameText, same⟩ := tracks saved isSaved
      rw [samePattern] at alone
      rw [sameText] at suffix
      exact later_start same settled suffix alone
  · exact .inl

/-- A suffix of what is left is all of it or a later place. -/
theorem hopes_fresh (pattern text : List UInt8) {behind} :
    Hopes ⟨pattern, text, some (pattern, text), behind⟩ ↔ ∃ rest, rest <:+ text ∧ MatchesAlone pattern rest := by
  constructor
  · rintro (alone | ⟨saved, isSaved, later, suffix, _, alone⟩)
    · exact ⟨text, List.suffix_rfl, alone⟩
    · obtain rfl := Option.some.inj isSaved
      exact ⟨later, suffix, alone⟩
  · rintro ⟨rest, suffix, alone⟩
    by_cases whole : rest = text
    · exact .inl (whole ▸ alone)
    · exact .inr ⟨_, rfl, rest, suffix, whole, alone⟩

theorem tracks_fresh (pattern text : List UInt8) {behind} :
    Tracks ⟨pattern, text, some (pattern, text), behind⟩ := by
  rintro saved ⟨⟩
  exact ⟨[], [], rfl, rfl, .nil⟩

/-- Going back keeps what can still be found, when nothing can be found from here on. -/
theorem backtrack_hopes {matcher : Matcher} (nonempty : matcher.text ≠ [])
    (mismatch : ¬ MatchesAlone matcher.pattern matcher.text) :
    (∃ next, backtrack matcher = .inl next ∧ Tracks next ∧ (Hopes next ↔ Hopes matcher)) ∨
      backtrack matcher = .inr false ∧ ¬ Hopes matcher := by
  obtain ⟨pattern, text, star, behind⟩ := matcher
  cases star with
  | none =>
    refine .inr ⟨rfl, ?_⟩
    rintro (alone | ⟨saved, isSaved, _⟩)
    · exact mismatch alone
    · cases isSaved
  | some saved =>
    obtain ⟨after, seen⟩ := saved
    cases seen with
    | nil =>
      have short := behind _ rfl
      exact absurd (List.length_eq_zero_iff.mp (Nat.le_zero.mp short)) nonempty
    | cons character seen =>
      refine .inl ⟨_, rfl, tracks_fresh after seen, (hopes_fresh after seen).trans ?_⟩
      constructor
      · rintro ⟨rest, suffix, alone⟩
        refine .inr ⟨_, rfl, rest, suffix.trans (List.suffix_cons character seen), ?_, alone⟩
        rintro rfl
        exact absurd suffix.length_le (Nat.not_succ_le_self seen.length)
      · rintro (alone | ⟨saved, isSaved, later, suffix, proper, alone⟩)
        · exact absurd alone mismatch
        · obtain rfl := Option.some.inj isSaved
          rcases List.suffix_cons_iff.mp suffix with whole | suffix
          · exact absurd whole proper
          · exact ⟨later, suffix, alone⟩

/-- One pass of the loop keeps what can be found, or answers whether there is anything. -/
theorem step_hopes {matcher : Matcher} (tracks : Tracks matcher) :
    (∃ next, step matcher = .inl next ∧ Tracks next ∧ (Hopes next ↔ Hopes matcher)) ∨
      ∃ answer, step matcher = .inr answer ∧ (answer = true ↔ Hopes matcher) := by
  have back (nonempty : matcher.text ≠ []) (mismatch : ¬ MatchesAlone matcher.pattern matcher.text)
      (stepped : step matcher = backtrack matcher) :
      (∃ next, step matcher = .inl next ∧ Tracks next ∧ (Hopes next ↔ Hopes matcher)) ∨
        ∃ answer, step matcher = .inr answer ∧ (answer = true ↔ Hopes matcher) := by
    rw [stepped]
    rcases backtrack_hopes nonempty mismatch with found | ⟨failed, hopeless⟩
    · exact .inl found
    · exact .inr ⟨false, failed, by simpa using hopeless⟩
  obtain ⟨pattern, text, star, behind⟩ := matcher
  cases text with
  | nil =>
    exact .inr ⟨_, rfl, (alone_empty pattern).symm.trans (hopes_settled tracks (.inl rfl)).symm⟩
  | cons character text =>
    cases pattern with
    | nil => exact back (by simp) (by simp [alone_nil]) rfl
    | cons symbol pattern =>
      by_cases accepted : globSymbols.Accepts symbol character
      · have stepped : step ⟨symbol :: pattern, character :: text, star, behind⟩ =
            .inl ⟨pattern, text, star, fun saved isSaved => Nat.le_of_succ_le (behind saved isSaved)⟩ := by
          simp [step, accepted]
        refine .inl ⟨_, stepped, ?_, ?_⟩
        · intro saved isSaved
          obtain ⟨compared, walked, samePattern, sameText, same⟩ := tracks saved isSaved
          exact ⟨compared ++ [symbol], walked ++ [character], by simp [samePattern], by simp [sameText],
            List.rel_append same (.cons accepted .nil)⟩
        · unfold Hopes
          rw [alone_accepted accepted]
      · by_cases isMany : symbol = globSymbols.many
        · subst isMany
          have elsewhere : (character :: text).head? ≠ some globSymbols.many := by
            rintro isStar
            exact accepted (.inr (Option.some.inj isStar).symm)
          have stepped : step ⟨globSymbols.many :: pattern, character :: text, star, behind⟩ =
              .inl ⟨pattern, character :: text, some (pattern, character :: text), by simp⟩ := by
            simp [step, accepted]
          refine .inl ⟨_, stepped, tracks_fresh pattern _, ?_⟩
          rw [hopes_fresh, hopes_settled tracks (.inr ⟨pattern, rfl, elsewhere⟩), alone_star elsewhere]
        · refine back (by simp) ?_ (by simp [step, accepted, isMany])
          rw [alone_symbol isMany]
          rintro ⟨_, _, same, accepts, _⟩
          obtain ⟨rfl, rfl⟩ := List.cons.inj same
          exact accepted accepts

/-- The loop answers whether there is a match to be found. -/
theorem run_hopes (matcher : Matcher) (tracks : Tracks matcher) : run matcher = true ↔ Hopes matcher := by
  induction matcher using run.induct with
  | case1 matcher answer stepped =>
    rw [run, stepped]
    rcases step_hopes tracks with ⟨next, isNext, _⟩ | ⟨answer', isAnswer, found⟩
    · rw [stepped] at isNext
      cases isNext
    · rw [stepped] at isAnswer
      obtain rfl := Sum.inr.inj isAnswer
      exact found
  | case2 matcher next stepped hypothesis =>
    rw [run, stepped]
    rcases step_hopes tracks with ⟨next', isNext, nextTracks, same⟩ | ⟨answer, isAnswer, _⟩
    · rw [stepped] at isNext
      obtain rfl := Sum.inl.inj isNext
      exact (hypothesis nextTracks).trans same
    · rw [stepped] at isAnswer
      cases isAnswer

/-- The matcher decides the language in which stars stand alone. -/
theorem globMatch_iff_alone (pattern text : List UInt8) :
    globMatch pattern text = true ↔ MatchesAlone pattern text := by
  have tracks : Tracks ⟨pattern, text, none, by simp⟩ := by
    rintro saved ⟨⟩
  rw [globMatch, run_hopes _ tracks]
  constructor
  · rintro (alone | ⟨saved, isSaved, _⟩)
    · exact alone
    · cases isSaved
  · exact .inl

/-- Where the text has no star, stars stand alone anyway. -/
theorem alone_of_no_star {pattern text : List UInt8} (noStar : globSymbols.many ∉ text)
    (matched : globSymbols.Matches pattern text) : MatchesAlone pattern text := by
  induction pattern generalizing text with
  | nil => exact (alone_nil text).mpr ((globSymbols.matches_nil text).mp matched)
  | cons symbol pattern hypothesis =>
    obtain ⟨part, rest, rfl, replaced, matched⟩ := (globSymbols.matches_cons symbol pattern text).mp matched
    refine (alone_cons _ _ _).mpr ⟨part, rest, rfl, replaced, ?_, hypothesis ?_ matched⟩
    · intro _ starts
      exact absurd (List.mem_of_mem_head? starts) noStar
    · exact fun member => noStar (List.mem_append_right part member)

/-- The matcher decides the pattern language exactly where every match can be had with its stars standing
alone. -/
theorem globMatch_decides_iff (pattern text : List UInt8) :
    (globMatch pattern text = true ↔ globSymbols.Matches pattern text) ↔
      (globSymbols.Matches pattern text → MatchesAlone pattern text) := by
  rw [globMatch_iff_alone]
  constructor
  · exact fun decides => decides.mpr
  · intro alone
    exact ⟨matches_of_alone, alone⟩

/-- `*a` is not found to match `*ba`. -/
theorem globMatch_misses_star :
    globMatch [42, 97] [42, 98, 97] = false ∧ globSymbols.Matches [42, 97] [42, 98, 97] := by
  constructor
  · rw [Bool.eq_false_iff, Ne, globMatch_iff_alone]
    intro alone
    obtain ⟨_, _, same, accepted, _⟩ := (alone_symbol (by decide) _ _).mp ((alone_star_star _ _).mp alone)
    obtain ⟨rfl, rfl⟩ := List.cons.inj same
    exact absurd accepted (by decide)
  · exact ⟨[[42, 98], [97]], .cons (globSymbols.replaces_many _) (.cons rfl .nil), rfl⟩

end KernelLake.GlobMatching
