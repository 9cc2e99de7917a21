import Scriptlet.Grammar.Parse
import Scriptlet.Proofs.Grammar.Counting
import Scriptlet.Proofs.Grammar.Scanning

/-!
The guard reads characters and the grammar lexemes, and still they agree on where a string, a
comment and a `??` begin and end. A number, a word and the white space between lexemes hold nothing
that the guard counts. Only at a quote that opens no string do the two part, and no rule of the
grammar gets past it.
-/

namespace Scriptlet.Grammar

open Text (isDigit)

variable {limit o q : Nat}

/-! ### Characters -/

/-- The guard at a character that begins no string, no comment and no `?`. -/
theorem exceeds_char {c : Char} {rest : List Char} (hquote : c ≠ '"') (hquestion : c ≠ '?')
    (hcomment : c = '/' → '/' ∉ rest.head?) :
    exceeds limit .code o q (c :: rest) =
      if isOpening c then limit < (o + 1) + q || exceeds limit .code (o + 1) q rest
      else if isClosing c then exceeds limit .code (o - 1) q rest
      else exceeds limit .code o q rest := by
  rw [exceeds]
  · rfl
  · exact hquote
  · rintro more hslash rfl
    exact hcomment hslash rfl
  · exact fun _ hmark _ => hquestion hmark
  · exact hquestion

theorem exceeds_question {rest : List Char} (h : '?' ∉ rest.head?) :
    exceeds limit .code o q ('?' :: rest) =
      (limit < o + (q + 1) || exceeds limit .code o (q + 1) rest) := by
  rw [exceeds]
  rintro more rfl
  exact h rfl

/-- A character that the guard passes over, whatever is behind it. -/
def isQuiet (c : Char) : Bool :=
  !(isOpening c || isClosing c || c == '?' || c == '"' || c == '/')

theorem exceeds_quiet {word : List Char} (h : ∀ c ∈ word, isQuiet c = true) (rest : List Char) :
    exceeds limit .code o q (word ++ rest) = exceeds limit .code o q rest := by
  induction word with
  | nil => rfl
  | cons c word ih =>
      have hc := h c List.mem_cons_self
      simp only [isQuiet, Bool.not_eq_true', Bool.or_eq_false_iff, beq_eq_false_iff_ne] at hc
      obtain ⟨⟨⟨⟨hopen, hclose⟩, hquestion⟩, hquote⟩, hslash⟩ := hc
      rw [List.cons_append, exceeds_char hquote hquestion fun h => absurd h hslash]
      simp only [hopen, hclose, Bool.false_eq_true, if_false]
      exact ih fun d hd => h d (List.mem_cons_of_mem c hd)

theorem isQuiet_of_continuesWord {c : Char} (h : continuesWord c = true) : isQuiet c = true := by
  have hother : ∀ d, continuesWord d = false → c ≠ d := by
    rintro d hd rfl
    rw [hd] at h
    cases h
  simp only [isQuiet, isOpening, isClosing, Bool.not_eq_true', Bool.or_eq_false_iff,
    beq_eq_false_iff_ne]
  exact ⟨⟨⟨⟨⟨hother _ rfl, hother _ rfl⟩, hother _ rfl, hother _ rfl⟩, hother _ rfl⟩,
    hother _ rfl⟩, hother _ rfl⟩

/-! ### White space and comments -/

theorem exceeds_skipLayout (comment : Bool) (cs : List Char) :
    exceeds limit (if comment then .comment else .code) o q cs =
      exceeds limit .code o q (skipLayout comment cs) := by
  fun_induction skipLayout comment cs with
  | case1 comment => cases comment <;> rfl
  | case2 c rest ih =>
      rw [← ih, if_pos rfl, exceeds]
      by_cases hline : c = '\n' <;> simp [hline]
  | case3 rest ih =>
      rw [← ih]
      rfl
  | case4 c rest hcomment hblank ih =>
      rw [← ih]
      simp only [isBlank, Bool.or_eq_true, beq_iff_eq] at hblank
      rcases hblank with ((rfl | rfl) | rfl) | rfl <;> rfl
  | case5 => rfl

/-- What is left when white space and comments are skipped begins with neither. -/
theorem skipLayout_head {comment : Bool} {cs : List Char} {c : Char} {rest : List Char}
    (h : skipLayout comment cs = c :: rest) :
    isBlank c = false ∧ (c = '/' → '/' ∉ rest.head?) := by
  fun_induction skipLayout comment cs with
  | case1 => cases h
  | case2 d more ih => exact ih h
  | case3 more ih => exact ih h
  | case4 d more hcomment hblank ih => exact ih h
  | case5 d more hcomment hblank =>
      obtain ⟨rfl, rfl⟩ := List.cons.inj h
      refine ⟨Bool.eq_false_iff.mpr hblank, ?_⟩
      rintro rfl hslash
      obtain ⟨tail, htail⟩ := List.head?_eq_some_iff.mp hslash
      exact hcomment tail rfl htail

theorem atLexeme_of_head {c : Char} {rest : List Char} (hblank : isBlank c = false)
    (hcomment : c = '/' → '/' ∉ rest.head?) : AtLexeme (c :: rest) := by
  unfold AtLexeme
  rw [skipLayout]
  · simp [hblank]
  · rintro more hslash rfl
    exact hcomment hslash rfl

theorem atLexeme_skipLayout (cs : List Char) : AtLexeme (skipLayout false cs) := by
  cases h : skipLayout false cs with
  | nil => rfl
  | cons c rest =>
      obtain ⟨hblank, hcomment⟩ := skipLayout_head h
      exact atLexeme_of_head hblank hcomment

theorem tokens_skipLayout (cs : List Char) : tokens (skipLayout false cs) = tokens cs := by
  rw [tokens_eq, atLexeme_skipLayout cs, ← tokens_eq]

/-! ### Strings -/

theorem exceeds_string {cs text rest : List Char} (h : stringBody? cs = some (text, rest)) :
    exceeds limit .string o q cs = exceeds limit .code o q rest := by
  fun_induction stringBody? cs generalizing text rest with
  | case1 => cases h
  | case2 more =>
      obtain ⟨_, rfl⟩ := Prod.mk.inj (Option.some.inj h)
      rfl
  | case3 c more ih =>
      simp only [bind, Option.bind_eq_some_iff] at h
      obtain ⟨_, _, ⟨inner, behind⟩, hinner, h⟩ := h
      obtain ⟨_, rfl⟩ := Prod.mk.inj (Option.some.inj h)
      exact ih hinner
  | case4 => cases h
  | case5 c more hquote hescape hend ih =>
      have hslash : c ≠ '\\' := by
        intro hslash
        cases more with
        | nil => exact hend hslash rfl
        | cons d tail => exact hescape d tail hslash rfl
      simp only [Option.map_eq_some_iff, Prod.mk.injEq] at h
      obtain ⟨⟨inner, behind⟩, hinner, _, rfl⟩ := h
      rw [exceeds, if_neg hslash, if_neg hquote]
      exact ih hinner

/-! ### Numbers -/

/-- Quiet characters lead from one text to the other. -/
def Quietly (cs rest : List Char) : Prop :=
  ∃ word, cs = word ++ rest ∧ ∀ c ∈ word, isQuiet c = true

theorem Quietly.refl (cs : List Char) : Quietly cs cs :=
  ⟨[], rfl, by simp⟩

theorem Quietly.trans {cs more rest : List Char} (h : Quietly cs more) (h' : Quietly more rest) :
    Quietly cs rest := by
  obtain ⟨word, rfl, hword⟩ := h
  obtain ⟨word', rfl, hword'⟩ := h'
  refine ⟨word ++ word', (List.append_assoc _ _ _).symm, fun c hc => ?_⟩
  exact (List.mem_append.mp hc).elim (hword c) (hword' c)

theorem quietly_cons {c : Char} (h : isQuiet c = true) (rest : List Char) :
    Quietly (c :: rest) rest :=
  ⟨[c], rfl, by simp [h]⟩

theorem quietly_dropWhile {p : Char → Bool} (h : ∀ c, p c = true → isQuiet c = true)
    (cs : List Char) : Quietly cs (cs.dropWhile p) :=
  ⟨cs.takeWhile p, List.takeWhile_append_dropWhile.symm,
    fun c hc => h c (List.all_eq_true.mp List.all_takeWhile c hc)⟩

theorem quietly_digits (cs : List Char) : Quietly cs (cs.dropWhile isDigit) :=
  quietly_dropWhile (fun _ h => isQuiet_of_continuesWord (continuesWord_of_isDigit h)) cs

theorem quietly_exponent {cs rest : List Char} {e : Bool × List Char}
    (h : exponent? cs = some (e, rest)) : Quietly cs rest := by
  have hdigits : ∀ {down : Bool} {ds : List Char}, exponentDigits? down ds = some (e, rest) →
      Quietly ds rest := by
    intro down ds h
    unfold exponentDigits? at h
    split at h
    · cases h
    · obtain ⟨_, rfl⟩ := Prod.mk.inj (Option.some.inj h)
      exact quietly_digits ds
  unfold exponent? at h
  split at h
  · cases h
  · next c more =>
      split at h
      · next hletter =>
          have hc : isQuiet c = true := by
            simp only [Bool.or_eq_true, beq_iff_eq] at hletter
            rcases hletter with rfl | rfl <;> rfl
          refine (quietly_cons hc more).trans ?_
          split at h
          · exact (quietly_cons rfl _).trans (hdigits h)
          · exact (quietly_cons rfl _).trans (hdigits h)
          · exact hdigits h
      · cases h

theorem quietly_floatWith (whole : List Char) (fraction : Option (List Char)) (cs : List Char) :
    Quietly cs (floatWith whole fraction cs).2 := by
  unfold floatWith
  split
  · next hexponent => exact quietly_exponent hexponent
  · exact .refl cs

theorem quietly_number (cs : List Char) : Quietly cs (number cs).2 := by
  have hwhole := quietly_digits cs
  unfold number
  dsimp only
  split
  · next after hpoint =>
      split
      · exact hwhole
      · rw [hpoint] at hwhole
        exact ((hwhole.trans (quietly_cons rfl after)).trans (quietly_digits after)).trans
          (quietly_floatWith _ _ _)
  · split
    · exact hwhole.trans (quietly_floatWith _ _ _)
    · exact hwhole

theorem number_ne_mark (cs : List Char) (c : Char) (glued : Bool) :
    (number cs).1 ≠ .mark c glued := by
  have hfloat : ∀ whole fraction cs, (floatWith whole fraction cs).1 ≠ .mark c glued := by
    intro whole fraction cs
    unfold floatWith
    split <;> exact Lexeme.noConfusion
  unfold number
  dsimp only
  split
  · split
    · exact Lexeme.noConfusion
    · exact hfloat _ _ _
  · split
    · exact hfloat _ _ _
    · exact Lexeme.noConfusion

/-! ### One lexeme -/

variable {stray : Bool}

theorem exceedsAt_of_not_mark {l : Lexeme} (h : ∀ c glued, l ≠ .mark c glued) (s : List Lexeme) :
    exceedsAt limit stray o q (l :: s) = exceedsAt limit stray o q s := by
  cases l with
  | mark c glued => exact absurd rfl (h c glued)
  | _ => rfl

theorem exceedsAt_mark {c : Char} (h : c ≠ '?') (glued : Bool) (s : List Lexeme) :
    exceedsAt limit stray o q (.mark c glued :: s) =
      if isOpening c then limit < (o + 1) + q || exceedsAt limit stray (o + 1) q s
      else if isClosing c then exceedsAt limit stray (o - 1) q s
      else if c = '"' then stray
      else exceedsAt limit stray o q s := by
  rw [exceedsAt]
  · rw [if_neg h]
  · exact fun _ _ _ hmark _ => h hmark

theorem exceedsAt_question (s : List Lexeme) :
    exceedsAt limit stray o q (.mark '?' false :: s) =
      (limit < o + (q + 1) || exceedsAt limit stray o (q + 1) s) := by
  rw [exceedsAt]
  · rfl
  · exact fun _ _ _ _ hglued => Bool.noConfusion hglued

theorem Quietly.exceeds {cs rest : List Char} (h : Quietly cs rest) :
    exceeds limit .code o q cs = exceeds limit .code o q rest := by
  obtain ⟨word, rfl, hword⟩ := h
  exact exceeds_quiet hword rest

/-- The guard over characters and the guard over lexemes agree on a text. -/
def GuardAgrees (limit : Nat) (cs : List Char) : Prop :=
  ∀ o q, ∃ stray, exceeds limit .code o q cs = exceedsAt limit stray o q (tokens cs)

/-- A lexeme that the guard passes over. -/
theorem GuardAgrees.of_quietly {cs rest : List Char} {l : Lexeme} (h : GuardAgrees limit rest)
    (hquiet : Quietly cs rest) (hl : ∀ c glued, l ≠ .mark c glued)
    (htokens : tokens cs = l :: tokens rest) : GuardAgrees limit cs := by
  intro o q
  obtain ⟨stray, hagree⟩ := h o q
  exact ⟨stray, by rw [hquiet.exceeds, htokens, exceedsAt_of_not_mark hl, hagree]⟩

theorem GuardAgrees.of_quote {rest : List Char}
    (h : ∀ text behind, stringBody? rest = some (text, behind) → GuardAgrees limit behind) :
    GuardAgrees limit ('"' :: rest) := by
  intro o q
  have hstring : exceeds limit .code o q ('"' :: rest) = exceeds limit .string o q rest := rfl
  rw [hstring, tokens_of_atLexeme (atLexeme_of_ne rest rfl (by decide))]
  unfold lexeme
  rw [if_neg (by decide), if_neg (by decide), if_pos rfl]
  cases hbody : stringBody? rest with
  | none => exact ⟨exceeds limit .string o q rest, rfl⟩
  | some found =>
      obtain ⟨text, behind⟩ := found
      obtain ⟨stray, hagree⟩ := h text behind hbody o q
      exact ⟨stray, by rw [exceeds_string hbody, hagree]; rfl⟩

/-- A mark other than a question mark. -/
theorem GuardAgrees.of_mark {c : Char} {rest : List Char} (h : GuardAgrees limit rest)
    (hc : IsMark c) (hquestion : c ≠ '?') (hcomment : c = '/' → '/' ∉ rest.head?) :
    GuardAgrees limit (c :: rest) := by
  intro o q
  have hquote : c ≠ '"' := hc.2.2.2
  rw [exceeds_char hquote hquestion hcomment, tokens_mark hc (atLexeme_of_head hc.1 hcomment) rfl]
  simp only [exceedsAt_mark hquestion, if_neg hquote]
  cases isOpening c with
  | true =>
      obtain ⟨stray, hagree⟩ := h (o + 1) q
      exact ⟨stray, by rw [if_pos rfl, if_pos rfl, hagree]⟩
  | false =>
      cases isClosing c with
      | true => exact h (o - 1) q
      | false => exact h o q

theorem tokens_question (rest : List Char) :
    tokens ('?' :: rest) = .mark '?' (rest.head?.any (joins '?')) :: tokens rest :=
  tokens_mark (by decide) (atLexeme_of_ne rest rfl (by decide)) rfl

theorem joins_question {d : Char} (h : d ≠ '?') : joins '?' d = false := by
  unfold joins
  split <;> simp_all

theorem GuardAgrees.of_question {rest : List Char} (h : GuardAgrees limit rest)
    (hrest : '?' ∉ rest.head?) : GuardAgrees limit ('?' :: rest) := by
  intro o q
  have hglued : rest.head?.any (joins '?') = false := by
    cases rest with
    | nil => rfl
    | cons d more => exact joins_question fun hd => hrest (congrArg some hd)
  obtain ⟨stray, hagree⟩ := h o (q + 1)
  refine ⟨stray, ?_⟩
  rw [exceeds_question hrest, tokens_question, hglued, exceedsAt_question, hagree]

theorem GuardAgrees.of_pair {rest : List Char} (h : GuardAgrees limit rest) :
    GuardAgrees limit ('?' :: '?' :: rest) := by
  intro o q
  obtain ⟨stray, hagree⟩ := h o q
  exact ⟨stray, by rw [tokens_question, tokens_question]; exact hagree⟩

theorem GuardAgrees.of_layout {cs : List Char} (h : GuardAgrees limit (skipLayout false cs)) :
    GuardAgrees limit cs := by
  intro o q
  obtain ⟨stray, hagree⟩ := h o q
  have hskip : exceeds limit .code o q cs = exceeds limit .code o q (skipLayout false cs) :=
    exceeds_skipLayout false cs
  exact ⟨stray, by rw [hskip, hagree, tokens_skipLayout]⟩

theorem GuardAgrees.of_word {c : Char} {rest : List Char} (hc : startsWord c = true)
    (h : GuardAgrees limit (rest.dropWhile continuesWord)) : GuardAgrees limit (c :: rest) := by
  have hword := continuesWord_of_startsWord hc
  obtain ⟨hblank, hslash, _, _⟩ := not_isBlank_of_continuesWord hword
  have htokens := tokens_of_atLexeme (atLexeme_of_ne rest hblank hslash)
  unfold lexeme at htokens
  rw [if_neg (by simp [isDigit_of_startsWord hc]), if_pos hc] at htokens
  refine h.of_quietly ?_ (fun _ _ => Lexeme.noConfusion) htokens
  exact (quietly_cons (isQuiet_of_continuesWord hword) rest).trans
    (quietly_dropWhile (fun _ => isQuiet_of_continuesWord) rest)

theorem GuardAgrees.of_digit {c : Char} {rest : List Char} (hc : isDigit c = true)
    (h : GuardAgrees limit (number (c :: rest)).2) : GuardAgrees limit (c :: rest) := by
  obtain ⟨hblank, hslash⟩ := isBlank_of_isDigit hc
  have htokens := tokens_of_atLexeme (atLexeme_of_ne rest hblank hslash)
  unfold lexeme at htokens
  rw [if_pos hc] at htokens
  exact h.of_quietly (quietly_number _) (number_ne_mark _) htokens

/-- The guard over characters is the guard over lexemes. -/
theorem guard_agrees (limit : Nat) (cs : List Char) : GuardAgrees limit cs := by
  induction hn : cs.length using Nat.strongRecOn generalizing cs with
  | ind n ih =>
      have hlength := skipLayout_length_le false cs
      refine .of_layout ?_
      cases hlayout : skipLayout false cs with
      | nil => exact fun o q => ⟨false, by rw [tokens_eq]; rfl⟩
      | cons c rest =>
          obtain ⟨hblank, hcomment⟩ := skipLayout_head hlayout
          rw [hlayout, List.length_cons, hn] at hlength
          have hshorter : ∀ s : List Char, s.length ≤ rest.length → GuardAgrees limit s :=
            fun s hs => ih s.length (by omega) s rfl
          by_cases hdigit : isDigit c = true
          · exact .of_digit hdigit (hshorter _ (number_length hdigit rest))
          by_cases hword : startsWord c = true
          · exact .of_word hword (hshorter _ (length_dropWhile_le _ _))
          by_cases hquote : c = '"'
          · subst hquote
            exact .of_quote fun text behind hbody =>
              hshorter behind (Nat.le_of_lt (stringBody?_length hbody))
          by_cases hquestion : c = '?'
          · subst hquestion
            by_cases hrest : '?' ∈ rest.head?
            · obtain ⟨more, rfl⟩ := List.head?_eq_some_iff.mp hrest
              exact .of_pair (hshorter more (Nat.le_succ _))
            · exact (hshorter rest (Nat.le_refl _)).of_question hrest
          · have hmark : IsMark c := by
              simp only [Bool.not_eq_true] at hdigit hword
              exact ⟨hblank, hdigit, hword, hquote⟩
            exact (hshorter rest (Nat.le_refl _)).of_mark hmark hquestion hcomment

/-! ### Sources -/

theorem lexeme_glued {c : Char} {rest : List Char} (h : (lexeme c rest).1 = .mark '?' true) :
    c = '?' ∧ '?' ∈ rest.head? := by
  unfold lexeme at h
  split at h
  · exact absurd h (number_ne_mark _ _ _)
  · split at h
    · cases h
    · split at h
      · split at h
        · cases h
        · cases h
      · cases rest with
        | nil => cases h
        | cons d more =>
            obtain ⟨rfl, hjoins⟩ := Lexeme.mark.inj h
            refine ⟨rfl, ?_⟩
            by_cases hd : d = '?'
            · exact congrArg some hd
            · rw [joins_question hd] at hjoins
              cases hjoins

/-- In every source the halves of a `??` stand together. -/
theorem paired_tokens (cs : List Char) : Paired (tokens cs) := by
  induction hn : cs.length using Nat.strongRecOn generalizing cs with
  | ind n ih =>
      have hlength := skipLayout_length_le false cs
      intro after hafter
      rw [tokens_eq] at hafter
      cases hlayout : skipLayout false cs with
      | nil =>
          rw [hlayout] at hafter
          cases List.suffix_nil.mp hafter
      | cons c rest =>
          rw [hlayout] at hafter hlength
          rw [List.length_cons] at hlength
          have hlexeme := lexeme_length c rest
          rcases List.suffix_cons_iff.mp hafter with hwhole | hlater
          · obtain ⟨hfirst, rfl⟩ := List.cons.inj hwhole
            obtain ⟨rfl, hhead⟩ := lexeme_glued hfirst.symm
            obtain ⟨more, rfl⟩ := List.head?_eq_some_iff.mp hhead
            exact ⟨_, _, tokens_question more⟩
          · exact ih _ (by omega) _ rfl after hlater

/-- The lexemes of an accepted source are balanced. -/
theorem balanced_of_phrase? {source : String} {phrase : Phrase}
    (h : phrase? source = some phrase) : Balanced (lexemes source) := by
  have hwalk := Watched.expression_walk ((lexemes source).length + 1) (lexemes source)
  rw [Watched.expression_result] at hwalk
  have htaken := hwalk.taken (paired_tokens source.toList)
  unfold phrase? program at h
  split at h
  · next found hfound =>
      obtain ⟨before, hbefore, hbalanced⟩ := htaken [] (by rw [hfound]; rfl)
      rw [hbefore, List.append_nil]
      exact hbalanced
  · next found glued hfound =>
      obtain ⟨before, hbefore, hbalanced⟩ := htaken [.mark ';' glued] (by rw [hfound]; rfl)
      rw [hbefore]
      exact .append hbalanced (.plain rfl)
  · cases h

section Sources

variable {source : String}

/-- Where the guard lets a source through, the count is within the limit. -/
theorem within_of_guard (h : tooNested source = false) :
    Within nestingLimit ⟨0, 0, false⟩ (lexemes source) := by
  obtain ⟨stray, hagree⟩ := guard_agrees nestingLimit source.toList 0 0
  rw [tooNested, hagree] at h
  exact within_of_not_exceedsAt h (paired_tokens _) rfl (Int.le_refl 0) (Nat.le_refl 0)
    (Nat.zero_le _)

theorem guard_of_within (h : Within nestingLimit ⟨0, 0, false⟩ (lexemes source))
    (hbalanced : Balanced (lexemes source)) : tooNested source = false := by
  obtain ⟨stray, hagree⟩ := guard_agrees nestingLimit source.toList 0 0
  rw [tooNested, hagree]
  exact not_exceedsAt_of_within h hbalanced.clean (paired_tokens _)
    fun before hbefore => hbalanced.le_brackets rfl hbefore

/-- What is open at a moment has been counted in front of it. -/
theorem moment_within (hguard : tooNested source = false) {depth : Nat} {m : Moment}
    (hm : m ∈ (Watched.expression depth (lexemes source)).moments) :
    m.openers.length ≤ nestingLimit ∨
      ∃ outer before,
        m.openers = outer ++ [.branch] ∧ outer.length = nestingLimit ∧
          lexemes source = before ++ .mark '?' true :: m.ahead ∧
          ∀ depth, Watched.expression depth m.ahead = ⟨[⟨[], m.ahead⟩], none⟩ := by
  have hpaired : Paired (lexemes source) := paired_tokens _
  obtain ⟨tried, mid, hmid, hdescent⟩ := (Watched.expression_walk depth _).placed hpaired m hm
  have hcount : (tally mid).total ≤ nestingLimit :=
    within_of_guard hguard mid ⟨m.ahead, hmid.symm⟩ hdescent.clean
  have hopen : 0 + (m.openers.length : Int) ≤ (tally mid).total + tried.toNat :=
    hdescent.le_total rfl
  by_cases hwithin : m.openers.length ≤ nestingLimit
  · exact .inl hwithin
  · right
    cases tried with
    | false =>
        simp only [Bool.toNat_false] at hopen
        omega
    | true =>
        obtain ⟨outer, before, houter, rfl⟩ := hdescent.innermost
        rw [List.append_assoc] at hmid
        obtain ⟨glued, more, hahead⟩ :=
          hpaired m.ahead (hmid ▸ List.suffix_append before (.mark '?' true :: m.ahead))
        rw [houter, List.length_append, List.length_singleton] at hwithin hopen
        simp only [Bool.toNat_true] at hopen
        refine ⟨outer, before, houter, by omega, hmid, fun depth => ?_⟩
        rw [hahead]
        exact Watched.expression_question depth glued more

/-- In an expression the guard finds too much exactly where too much has been counted. -/
theorem guard_iff {phrase : Phrase} (hphrase : phrase? source = some phrase) :
    tooNested source = true ↔
      ∃ before, before <+: lexemes source ∧ nestingLimit < (tally before).total := by
  have hbalanced := balanced_of_phrase? hphrase
  constructor
  · intro hguard
    apply Classical.byContradiction
    intro hnone
    have hwithin : Within nestingLimit ⟨0, 0, false⟩ (lexemes source) :=
      fun before hbefore _ => Int.not_lt.mp fun hlt => hnone ⟨before, hbefore, hlt⟩
    rw [guard_of_within hwithin hbalanced] at hguard
    cases hguard
  · rintro ⟨before, hbefore, hlt⟩
    apply Classical.byContradiction
    intro hguard
    have hwithin := within_of_guard (Bool.not_eq_true _ ▸ hguard)
    have hle := hwithin before hbefore fun glued hmem =>
      hbalanced.clean glued (hbefore.subset hmem)
    exact Int.not_lt.mpr hle hlt

end Sources

end Grammar

open Grammar

/-- The guard bounds what the grammar opens, and it counts what the grammar reads. In a source that
it lets through, whether that is an expression or not, no more is open at any moment of the matching
than the limit allows. Only the first half of a `??` may go beyond, by one: it is tried as the mark
of a branch, which fails at the second half and opens nothing. And a source that is an expression is
refused exactly if at some lexeme of it the brackets that are open and the question marks of
conditionals so far are more than the limit. -/
theorem guard_bounds_matching (source : String) :
    (tooNested source = false → ∀ depth,
      (Watched.expression depth (lexemes source)).result = expression depth (lexemes source) ∧
        ∀ m ∈ (Watched.expression depth (lexemes source)).moments,
          m.openers.length ≤ nestingLimit ∨
            ∃ outer before,
              m.openers = outer ++ [.branch] ∧ outer.length = nestingLimit ∧
                lexemes source = before ++ .mark '?' true :: m.ahead ∧
                ∀ depth, Watched.expression depth m.ahead = ⟨[⟨[], m.ahead⟩], none⟩) ∧
      ∀ phrase, phrase? source = some phrase →
        (tooNested source = true ↔
          ∃ before, before <+: lexemes source ∧ nestingLimit < (tally before).total) := by
  refine ⟨fun hguard depth => ⟨?_, fun m hm => ?_⟩, fun phrase hphrase => ?_⟩
  · exact Watched.expression_result depth _
  · exact moment_within hguard hm
  · exact guard_iff hphrase

/-- As many groups as the limit allows, and in the innermost a `??` without a right operand. -/
def danglingCoalesce : String :=
  String.ofList (List.replicate nestingLimit '(' ++ "a ?? )".toList)

/-- The limit is passed at the second half of the `??`, though the guard lets the source through. -/
theorem danglingCoalesce_beyond_limit :
    tooNested danglingCoalesce = false ∧
      ∃ m ∈ (Watched.expression ((lexemes danglingCoalesce).length + 1)
          (lexemes danglingCoalesce)).moments,
        nestingLimit < m.openers.length := by
  have hmoment : ((Watched.expression ((lexemes danglingCoalesce).length + 1)
      (lexemes danglingCoalesce)).moments.any
        fun m => decide (nestingLimit < m.openers.length)) = true := by
    decide +kernel
  obtain ⟨m, hm, hopen⟩ := List.any_eq_true.mp hmoment
  exact ⟨by decide +kernel, m, hm, of_decide_eq_true hopen⟩

/-- A `??` without a right operand, brackets that do not count and one bracket too many. -/
theorem guard_bounds_matching_of_brackets :
    let brackets := List.replicate 33 '('
    let quoted := String.ofList ('"' :: (brackets ++ "\" ?? a // ".toList ++ brackets))
    let nested := String.ofList (brackets ++ 'a' :: List.replicate 33 ')')
    (∀ depth, ∀ m ∈ (Watched.expression depth (lexemes danglingCoalesce)).moments,
        m.openers.length ≤ nestingLimit + 1) ∧
      (¬ ∃ before, before <+: lexemes quoted ∧ nestingLimit < (tally before).total) ∧
      ∃ before, before <+: lexemes nested ∧ nestingLimit < (tally before).total := by
  intro brackets quoted nested
  refine ⟨fun depth m hm => ?_, ?_, ?_⟩
  · have hguard : tooNested danglingCoalesce = false := by decide +kernel
    rcases ((guard_bounds_matching danglingCoalesce).1 hguard depth).2 m hm with
      hle | ⟨outer, before, hopeners, houter, _⟩
    · exact Nat.le_succ_of_le hle
    · rw [hopeners, List.length_append, houter]
      exact Nat.le_refl _
  · obtain ⟨phrase, hphrase⟩ := Option.isSome_iff_exists.mp
      (show (phrase? quoted).isSome = true by decide +kernel)
    have hguard : tooNested quoted = false := by decide +kernel
    rw [← (guard_bounds_matching quoted).2 phrase hphrase, hguard]
    exact Bool.false_ne_true
  · obtain ⟨phrase, hphrase⟩ := Option.isSome_iff_exists.mp
      (show (phrase? nested).isSome = true by decide +kernel)
    have hguard : tooNested nested = true := by decide +kernel
    exact ((guard_bounds_matching nested).2 phrase hphrase).mp hguard

end Scriptlet
