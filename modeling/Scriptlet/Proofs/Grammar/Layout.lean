import Scriptlet.Proofs.Grammar.Strings
import Scriptlet.Proofs.Grammar.Taking

/-!
Layout never changes meaning. White space and comments may be put between the tokens of a source,
in front of the first and behind the last. A text that has been spread in this way goes on as the
text before for a while and then with a blank, or it is the same text; and no lexeme that ends in
front of the one reads on in front of the other. So the lexemes stay what they were, and the
grammar, which sees nothing else, gives the same phrase. The guard reads characters, but in an
expression it finds what it would find in the lexemes.
-/

namespace Scriptlet

namespace Grammar

open Text (isDigit)

/-- White space and comments, every comment with the newline that ends it. -/
inductive Trivia : List Char → Prop
  | nil : Trivia []
  | blank {c : Char} {rest : List Char} : isBlank c = true → Trivia rest → Trivia (c :: rest)
  | comment {body rest : List Char} :
      '\n' ∉ body → Trivia rest → Trivia ('/' :: '/' :: (body ++ '\n' :: rest))

/-- What stands behind the last token and the trivia there: nothing, or a comment without a
newline. -/
def Unended (last : List Char) : Prop :=
  last = [] ∨ ∃ body, last = '/' :: '/' :: body ∧ '\n' ∉ body

/-- A token in front of the rest of a text: an operator of two characters, or what the scanner reads
as one lexeme that is not glued to the next. -/
inductive IsToken : (token rest : List Char) → Prop
  | operator {c d : Char} (rest : List Char) : joins c d = true → IsToken [c, d] rest
  | lexeme {c : Char} {more rest : List Char} {l : Lexeme} :
      AtLexeme (c :: (more ++ rest)) → Grammar.lexeme c (more ++ rest) = (l, rest) →
        (∀ d, l ≠ .mark d true) → IsToken (c :: more) rest

/-- The second text is the first with trivia put in at some of the boundaries between its tokens.
What is put in begins with a blank, so that it cannot become part of what stands in front of it. At
the very end the newline of its last comment may be missing. -/
inductive Spread : (text spread : List Char) → Prop
  | insert {ins text spread : List Char} : Trivia ins → ins.head?.any isBlank = true →
      Spread text spread → Spread text (ins ++ spread)
  | blank {c : Char} {text spread : List Char} :
      isBlank c = true → Spread text spread → Spread (c :: text) (c :: spread)
  | comment {body text spread : List Char} : '\n' ∉ body → Spread text spread →
      Spread ('/' :: '/' :: (body ++ '\n' :: text)) ('/' :: '/' :: (body ++ '\n' :: spread))
  | token {token text spread : List Char} : IsToken token text → Spread text spread →
      Spread (token ++ text) (token ++ spread)
  | last {last : List Char} : Unended last → Spread last last
  | ending {last ins : List Char} : Unended last → Trivia (ins ++ ['\n']) →
      ins.head?.any isBlank = true → Spread last (last ++ ins)

/-- A source with trivia put in. Only at the very start they need not begin with a blank. -/
def Relaid (source relaid : List Char) : Prop :=
  ∃ first spread, relaid = first ++ spread ∧ Trivia first ∧ Spread source spread

/-! ### White space and comments -/

theorem skipLayout_comment {body : List Char} (h : '\n' ∉ body) (rest : List Char) :
    skipLayout true (body ++ rest) = skipLayout true rest := by
  induction body with
  | nil => rfl
  | cons c body ih =>
      rw [List.mem_cons, not_or] at h
      have hc : (c != '\n') = true := bne_iff_ne.mpr (Ne.symm h.1)
      rw [List.cons_append, skipLayout, hc, ih h.2]

theorem skipLayout_blank {c : Char} (h : isBlank c = true) (rest : List Char) :
    skipLayout false (c :: rest) = skipLayout false rest := by
  rw [skipLayout]
  · rw [if_pos h]
  · rintro more rfl _
    cases h

theorem skipLayout_line {body : List Char} (h : '\n' ∉ body) (comment : Bool) (rest : List Char) :
    skipLayout comment ('/' :: '/' :: (body ++ '\n' :: rest)) = skipLayout false rest := by
  cases comment <;> exact skipLayout_comment h _

theorem Trivia.skipLayout {ins : List Char} (h : Trivia ins) (rest : List Char) :
    Grammar.skipLayout false (ins ++ rest) = Grammar.skipLayout false rest := by
  induction h with
  | nil => rfl
  | blank hc _ ih => rw [List.cons_append, skipLayout_blank hc, ih]
  | comment hbody _ ih =>
      simp only [List.cons_append, List.append_assoc]
      rw [skipLayout_line hbody, ih]

/-- Trivia are skipped no less when they begin inside of a comment. -/
theorem Trivia.skipLayout_self {ins : List Char} (h : Trivia ins) (comment : Bool) :
    Grammar.skipLayout comment ins = [] := by
  induction h generalizing comment with
  | nil => rfl
  | blank hc _ ih =>
      cases comment with
      | false => rw [skipLayout_blank hc, ih]
      | true => rw [Grammar.skipLayout, ih]
  | comment hbody _ ih => rw [skipLayout_line hbody, ih]

/-- A newline at the end can be done without. -/
theorem skipLayout_of_newline {comment : Bool} {cs : List Char}
    (h : skipLayout comment (cs ++ ['\n']) = []) : skipLayout comment cs = [] := by
  fun_induction skipLayout comment cs with
  | case1 => rfl
  | case2 c rest ih => exact ih h
  | case3 rest ih => exact ih h
  | case4 c rest hcomment hblank ih =>
      rw [List.cons_append, skipLayout_blank hblank] at h
      exact ih h
  | case5 c rest hcomment hblank =>
      rw [List.cons_append, skipLayout, if_neg hblank] at h
      · cases h
      · rintro more rfl hmore
        cases rest with
        | nil => cases hmore
        | cons d rest =>
            obtain ⟨rfl, _⟩ := List.cons.inj hmore
            exact hcomment rest rfl rfl

theorem Unended.skipLayout {last ins : List Char} (hlast : Unended last)
    (hins : Trivia (ins ++ ['\n'])) : Grammar.skipLayout false (last ++ ins) = [] := by
  have hskip := fun comment => skipLayout_of_newline (hins.skipLayout_self comment)
  rcases hlast with rfl | ⟨body, rfl, hbody⟩
  · exact hskip false
  · exact (skipLayout_comment hbody ins).trans (hskip true)

theorem tokens_congr {cs cs' : List Char} (h : skipLayout false cs = skipLayout false cs') :
    tokens cs = tokens cs' := by
  rw [tokens_eq, h, ← tokens_eq]

/-! ### What stands behind a lexeme -/

/-- The texts agree up to where the second goes on with a blank, or they are the same. -/
inductive Follows : List Char → List Char → Prop
  | same (cs : List Char) : Follows cs cs
  | blank {b : Char} (cs rest : List Char) : isBlank b = true → Follows cs (b :: rest)
  | cons (c : Char) {cs cs' : List Char} : Follows cs cs' → Follows (c :: cs) (c :: cs')

theorem Follows.append {cs cs' : List Char} (h : Follows cs cs') (front : List Char) :
    Follows (front ++ cs) (front ++ cs') := by
  induction front with
  | nil => exact h
  | cons c front ih => exact .cons c ih

theorem follows_of_blank {ins : List Char} (h : ins.head?.any isBlank = true)
    (cs rest : List Char) : Follows cs (ins ++ rest) := by
  cases ins with
  | nil => cases h
  | cons b ins => exact .blank cs (ins ++ rest) h

theorem Spread.follows {text spread : List Char} (h : Spread text spread) :
    Follows text spread := by
  induction h with
  | insert _ hblank _ _ => exact follows_of_blank hblank _ _
  | @blank c _ _ _ _ ih => exact ih.append [c]
  | @comment body _ _ _ _ ih =>
      exact .cons _ (.cons _ ((Follows.cons '\n' ih).append body))
  | token _ _ ih => exact ih.append _
  | last _ => exact .same _
  | @ending last ins _ _ hblank =>
      have hfollows := (follows_of_blank hblank [] []).append last
      simpa using hfollows

/-- What a lexeme ends in front of, no blank can make it go on. -/
theorem Follows.head {cs cs' : List Char} (h : Follows cs cs') {p : Char → Bool}
    (hblank : ∀ b, isBlank b = true → p b = false) (hcs : ∀ c ∈ cs.head?, p c = false) :
    ∀ c ∈ cs'.head?, p c = false := by
  cases h with
  | same => exact hcs
  | blank _ rest hb =>
      intro c hc
      obtain rfl := Option.some.inj hc
      exact hblank _ hb
  | cons d _ => exact hcs

theorem not_of_isBlank {p : Char → Bool} (h : p ' ' = false ∧ p '\t' = false ∧ p '\r' = false ∧
    p '\n' = false) (b : Char) (hb : isBlank b = true) : p b = false := by
  simp only [isBlank, Bool.or_eq_true, beq_iff_eq] at hb
  rcases hb with ((rfl | rfl) | rfl) | rfl
  · exact h.1
  · exact h.2.1
  · exact h.2.2.1
  · exact h.2.2.2

theorem Follows.not_digit {cs cs' : List Char} (h : Follows cs cs')
    (hcs : ∀ c ∈ cs.head?, isDigit c = false) : ∀ c ∈ cs'.head?, isDigit c = false :=
  h.head (not_of_isBlank (by decide)) hcs

theorem head_dropWhile (p : Char → Bool) (cs : List Char) :
    ∀ c ∈ (cs.dropWhile p).head?, p c = false := by
  have h := List.head?_dropWhile_not p cs
  intro c hc
  rw [Option.mem_def.mp hc] at h
  exact h

theorem all_takeWhile (p : Char → Bool) (cs : List Char) : ∀ c ∈ cs.takeWhile p, p c = true :=
  List.all_eq_true.mp List.all_takeWhile

theorem Follows.span {p : Char → Bool} {cs rest' : List Char}
    (h : Follows (cs.dropWhile p) rest') (hblank : ∀ b, isBlank b = true → p b = false) :
    (cs.takeWhile p ++ rest').takeWhile p = cs.takeWhile p ∧
      (cs.takeWhile p ++ rest').dropWhile p = rest' :=
  span_append (all_takeWhile p cs) (h.head hblank (head_dropWhile p cs))

/-- The front of a text without a blank is the front of what it follows. -/
theorem Follows.front {front rest' cs : List Char} (h : Follows cs (front ++ rest'))
    (hfront : ∀ c ∈ front, isBlank c = false) : ∃ rest, cs = front ++ rest := by
  induction front generalizing cs with
  | nil => exact ⟨cs, rfl⟩
  | cons c front ih =>
      cases h with
      | same => exact ⟨rest', rfl⟩
      | blank _ _ hb =>
          rw [hfront c List.mem_cons_self] at hb
          cases hb
      | cons _ hmore =>
          obtain ⟨rest, rfl⟩ := ih hmore fun d hd => hfront d (List.mem_cons_of_mem c hd)
          exact ⟨rest, rfl⟩

/-! ### Numbers -/

/-- Digits do not begin with another character. -/
theorem IsDigits.head_ne {digits : List Char} (h : IsDigits digits) {c : Char} (rest : List Char)
    (hc : isDigit c = false) {more : List Char} : digits ++ rest ≠ c :: more := by
  cases digits with
  | nil => exact absurd rfl h.1
  | cons d digits =>
      intro heq
      have hd : isDigit d = true := h.2 d List.mem_cons_self
      rw [(List.cons.inj heq).1, hc] at hd
      cases hd

/-- How an exponent is written. -/
inductive ExponentText : (exponent : Bool × List Char) → (written : List Char) → Prop
  | intro {c : Char} {sign digits : List Char} {down : Bool} : c = 'e' ∨ c = 'E' →
      (sign, down) ∈ [([], false), (['+'], false), (['-'], true)] → IsDigits digits →
        ExponentText (down, digits) (c :: (sign ++ digits))

theorem exponentDigits?_eq_some {down : Bool} {cs rest : List Char} {e : Bool × List Char}
    (h : exponentDigits? down cs = some (e, rest)) :
    e.1 = down ∧ IsDigits e.2 ∧ cs = e.2 ++ rest ∧ ∀ c ∈ rest.head?, isDigit c = false := by
  unfold exponentDigits? at h
  split at h
  · cases h
  · next hdigits =>
      obtain ⟨rfl, rfl⟩ := Prod.mk.inj (Option.some.inj h)
      exact ⟨rfl, ⟨hdigits, all_takeWhile isDigit cs⟩, List.takeWhile_append_dropWhile.symm,
        head_dropWhile isDigit cs⟩

theorem exponentDigits?_digits {digits : List Char} (h : IsDigits digits) (down : Bool)
    (rest : List Char) :
    exponentDigits? down (digits ++ rest) =
      some ((down, digits ++ rest.takeWhile isDigit), rest.dropWhile isDigit) := by
  unfold exponentDigits?
  rw [List.takeWhile_append_of_pos h.2, List.dropWhile_append_of_pos h.2]
  cases digits with
  | nil => exact absurd rfl h.1
  | cons d digits => rfl

theorem exponentText_of_exponent? {cs rest : List Char} {e : Bool × List Char}
    (h : exponent? cs = some (e, rest)) :
    ∃ written, cs = written ++ rest ∧ ExponentText e written ∧
      ∀ c ∈ rest.head?, isDigit c = false := by
  unfold exponent? at h
  split at h
  · cases h
  · next c more =>
      split at h
      · next hletter =>
          rw [Bool.or_eq_true, beq_iff_eq, beq_iff_eq] at hletter
          split at h
          · obtain ⟨hdown, hdigits, rfl, hrest⟩ := exponentDigits?_eq_some h
            exact ⟨c :: (['-'] ++ e.2), rfl,
              .intro hletter (by rw [hdown]; decide) hdigits, hrest⟩
          · obtain ⟨hdown, hdigits, rfl, hrest⟩ := exponentDigits?_eq_some h
            exact ⟨c :: (['+'] ++ e.2), rfl,
              .intro hletter (by rw [hdown]; decide) hdigits, hrest⟩
          · obtain ⟨hdown, hdigits, rfl, hrest⟩ := exponentDigits?_eq_some h
            exact ⟨c :: ([] ++ e.2), rfl,
              .intro hletter (by rw [hdown]; decide) hdigits, hrest⟩
      · cases h

/-- An exponent is read with all the digits behind it. -/
theorem ExponentText.exponent? {e : Bool × List Char} {written : List Char}
    (h : ExponentText e written) (rest : List Char) :
    Grammar.exponent? (written ++ rest) =
      some ((e.1, e.2 ++ rest.takeWhile isDigit), rest.dropWhile isDigit) := by
  obtain @⟨c, sign, digits, down, hletter, hsign, hdigits⟩ := h
  have hc : (c == 'e' || c == 'E') = true := by
    rw [Bool.or_eq_true, beq_iff_eq, beq_iff_eq]
    exact hletter
  have hread := exponentDigits?_digits hdigits
  simp only [List.mem_cons, Prod.mk.injEq, List.not_mem_nil, or_false] at hsign
  rcases hsign with ⟨rfl, rfl⟩ | ⟨rfl, rfl⟩ | ⟨rfl, rfl⟩
  · rw [List.nil_append, List.cons_append, Grammar.exponent?, if_pos hc, hread]
    · exact fun _ => hdigits.head_ne rest rfl
    · exact fun _ => hdigits.head_ne rest rfl
  · exact (if_pos hc).trans (hread false rest)
  · exact (if_pos hc).trans (hread true rest)

theorem ExponentText.not_blank {e : Bool × List Char} {written : List Char}
    (h : ExponentText e written) : ∀ c ∈ written, isBlank c = false := by
  obtain ⟨hletter, hsign, hdigits⟩ := h
  intro c hc
  rw [List.mem_cons, List.mem_append] at hc
  rcases hc with rfl | hc | hc
  · rcases hletter with rfl | rfl <;> rfl
  · simp only [List.mem_cons, Prod.mk.injEq, List.not_mem_nil, or_false] at hsign
    rcases hsign with ⟨rfl, rfl⟩ | ⟨rfl, rfl⟩ | ⟨rfl, rfl⟩ <;> simp_all [isBlank]
  · exact (isBlank_of_isDigit (hdigits.2 c hc)).1

/-- Where no exponent stands, none comes of it. -/
theorem Follows.no_exponent {cs cs' : List Char} (h : Follows cs cs') (hcs : exponent? cs = none) :
    exponent? cs' = none := by
  cases hfound : exponent? cs' with
  | none => rfl
  | some found =>
      obtain ⟨written, rfl, hwritten, _⟩ := exponentText_of_exponent? hfound
      obtain ⟨rest, rfl⟩ := h.front hwritten.not_blank
      rw [hwritten.exponent?] at hcs
      cases hcs

theorem Follows.exponent {cs rest rest' : List Char} {e : Bool × List Char}
    (h : Follows rest rest') (hcs : exponent? cs = some (e, rest)) :
    ∃ written, cs = written ++ rest ∧ exponent? (written ++ rest') = some (e, rest') := by
  obtain ⟨written, rfl, hwritten, hrest⟩ := exponentText_of_exponent? hcs
  have hnone : ∀ c ∈ ([] : List Char), isDigit c = true := fun _ hc => by cases hc
  obtain ⟨htake, hdrop⟩ := span_append hnone (h.not_digit hrest)
  rw [List.nil_append] at htake hdrop
  exact ⟨written, rfl, by rw [hwritten.exponent?, htake, hdrop, List.append_nil]⟩

theorem Follows.floatWith {whole : List Char} {fraction : Option (List Char)}
    {cs rest rest' : List Char} {l : Lexeme} (h : Follows rest rest')
    (hcs : Grammar.floatWith whole fraction cs = (l, rest)) :
    ∃ written, cs = written ++ rest ∧
      Grammar.floatWith whole fraction (written ++ rest') = (l, rest') := by
  unfold Grammar.floatWith at hcs
  split at hcs
  · next e behind hexponent =>
      obtain ⟨rfl, rfl⟩ := Prod.mk.inj hcs
      obtain ⟨written, rfl, hread⟩ := h.exponent hexponent
      exact ⟨written, rfl, by rw [Grammar.floatWith, hread]⟩
  · next hnone =>
      obtain ⟨rfl, rfl⟩ := Prod.mk.inj hcs
      exact ⟨[], rfl, by rw [List.nil_append, Grammar.floatWith, h.no_exponent hnone]⟩

/-- What digits are the beginning of. -/
def behindDigits (whole rest : List Char) : Lexeme × List Char :=
  match rest with
  | '.' :: after =>
      match after.takeWhile isDigit with
      | [] => (.integer whole, rest)
      | fraction => Grammar.floatWith whole (some fraction) (after.dropWhile isDigit)
  | _ =>
      match exponent? rest with
      | some _ => Grammar.floatWith whole none rest
      | none => (.integer whole, rest)

theorem number_eq (cs : List Char) :
    number cs = behindDigits (cs.takeWhile isDigit) (cs.dropWhile isDigit) := rfl

theorem behindDigits_point (whole after : List Char) :
    behindDigits whole ('.' :: after) =
      match after.takeWhile isDigit with
      | [] => (.integer whole, '.' :: after)
      | fraction => Grammar.floatWith whole (some fraction) (after.dropWhile isDigit) := rfl

theorem behindDigits_other {rest : List Char} (h : '.' ∉ rest.head?) (whole : List Char) :
    behindDigits whole rest =
      match exponent? rest with
      | some _ => Grammar.floatWith whole none rest
      | none => (.integer whole, rest) := by
  rw [behindDigits]
  rintro after rfl
  exact h rfl

theorem takeWhile_digits_eq_nil {cs : List Char} (h : ∀ c ∈ cs.head?, isDigit c = false) :
    cs.takeWhile isDigit = [] := by
  cases cs with
  | nil => rfl
  | cons c rest =>
      have hc : isDigit c = false := h c rfl
      simp [hc]

theorem head_not_digit {cs : List Char} (h : cs.takeWhile isDigit = []) :
    ∀ c ∈ cs.head?, isDigit c = false := by
  cases cs with
  | nil => exact fun _ hc => by cases hc
  | cons d rest =>
      intro c hc
      obtain rfl := Option.some.inj hc
      cases hd : isDigit d with
      | false => rfl
      | true => simp [hd] at h

/-- A point without a digit behind it leaves the digits an integer. -/
theorem Follows.behindDigits_point {after rest' : List Char} (h : Follows ('.' :: after) rest')
    (hafter : after.takeWhile isDigit = []) (whole : List Char) :
    behindDigits whole rest' = (.integer whole, rest') := by
  cases h with
  | same => rw [Grammar.behindDigits_point, hafter]
  | @blank b _ rest hb =>
      have hpoint : '.' ∉ (b :: rest).head? := by
        intro hhead
        obtain rfl := Option.some.inj hhead
        cases hb
      have hnone : exponent? (b :: rest) = none := (Follows.blank [] rest hb).no_exponent rfl
      rw [behindDigits_other hpoint, hnone]
  | cons _ hmore =>
      have hnone := takeWhile_digits_eq_nil (hmore.not_digit (head_not_digit hafter))
      rw [Grammar.behindDigits_point, hnone]

theorem Follows.behindDigits {whole text rest rest' : List Char} {l : Lexeme}
    (h : Follows rest rest') (hread : Grammar.behindDigits whole text = (l, rest)) :
    ∃ written, text = written ++ rest ∧
      Grammar.behindDigits whole (written ++ rest') = (l, rest') := by
  by_cases hpoint : '.' ∈ text.head?
  · obtain ⟨after, rfl⟩ := List.head?_eq_some_iff.mp hpoint
    rw [Grammar.behindDigits_point] at hread
    split at hread
    · next hnone =>
        obtain ⟨rfl, rfl⟩ := Prod.mk.inj hread
        exact ⟨[], rfl, h.behindDigits_point hnone whole⟩
    · next hsome =>
        obtain ⟨written, hwritten, hfloat⟩ := h.floatWith hread
        have hbehind := h.append written
        rw [← hwritten] at hbehind
        obtain ⟨htake, hdrop⟩ := hbehind.span (not_of_isBlank (by decide))
        refine ⟨'.' :: (after.takeWhile isDigit ++ written), ?_, ?_⟩
        · rw [List.cons_append, List.append_assoc, ← hwritten, List.takeWhile_append_dropWhile]
        · rw [List.cons_append, List.append_assoc, Grammar.behindDigits_point, htake, hdrop]
          split
          · next hnone => exact absurd hnone hsome
          · exact hfloat
  · have hother : ∀ {written}, Follows text (written ++ rest') →
        '.' ∉ (written ++ rest').head? := by
      intro written hfollows hhead
      have hdot : (('.' : Char) == '.') = false :=
        hfollows.head (p := (· == '.')) (not_of_isBlank (by decide))
          (fun c hc => beq_eq_false_iff_ne.mpr fun heq => hpoint (heq ▸ hc)) '.' hhead
      cases hdot
    rw [behindDigits_other hpoint] at hread
    split at hread
    · next found hfound =>
        have hfloat := hread
        rw [Grammar.floatWith, hfound] at hread
        obtain ⟨e, behind⟩ := found
        obtain ⟨rfl, rfl⟩ := Prod.mk.inj hread
        obtain ⟨written, rfl, hexponent⟩ := h.exponent hfound
        refine ⟨written, rfl, ?_⟩
        rw [behindDigits_other (hother (h.append written)), Grammar.floatWith, hexponent]
    · next hnone =>
        obtain ⟨rfl, rfl⟩ := Prod.mk.inj hread
        have hfollows : Follows text ([] ++ rest') := h
        refine ⟨[], rfl, ?_⟩
        rw [behindDigits_other (hother hfollows), hfollows.no_exponent hnone]
        rfl

theorem Follows.number {cs rest rest' : List Char} {l : Lexeme} (h : Follows rest rest')
    (hread : Grammar.number cs = (l, rest)) :
    ∃ written, cs = written ++ rest ∧ Grammar.number (written ++ rest') = (l, rest') := by
  rw [number_eq] at hread
  obtain ⟨written, hwritten, hbehind⟩ := h.behindDigits hread
  have hfollows := h.append written
  rw [← hwritten] at hfollows
  obtain ⟨htake, hdrop⟩ := hfollows.span (not_of_isBlank (by decide))
  refine ⟨cs.takeWhile isDigit ++ written, ?_, ?_⟩
  · rw [List.append_assoc, ← hwritten, List.takeWhile_append_dropWhile]
  · rw [List.append_assoc, number_eq, htake, hdrop, hbehind]

/-! ### Lexemes and tokens -/

/-- A lexeme that is a token by itself. -/
def isSingle : Lexeme → Bool
  | .mark c glued => !glued && c != '"'
  | _ => true

theorem takeWhile_of_dropWhile {p : Char → Bool} {more rest : List Char}
    (h : (more ++ rest).dropWhile p = rest) : (more ++ rest).takeWhile p = more :=
  List.append_cancel_right
    ((congrArg (_ ++ ·) h.symm).trans List.takeWhile_append_dropWhile)

theorem lexeme_mark {c : Char} (hdigit : ¬ isDigit c = true) (hword : ¬ startsWord c = true)
    (hquote : c ≠ '"') (rest : List Char) :
    lexeme c rest = (.mark c (rest.head?.any (joins c)), rest) := by
  unfold lexeme
  rw [if_neg hdigit, if_neg hword, if_neg hquote]
  cases rest <;> rfl

/-- A mark that is not glued to what is behind it is not glued to a blank either. -/
theorem Follows.unglued {c : Char} {cs cs' : List Char} (h : Follows cs cs')
    (hcs : cs.head?.any (joins c) = false) : cs'.head?.any (joins c) = false := by
  have hblank : ∀ b, isBlank b = true → joins c b = false := by
    refine fun b hb => joins_of_other ⟨?_, ?_, ?_, ?_⟩ c <;>
      · rintro rfl
        cases hb
  have hhead := h.head hblank fun d hd => by
    rw [Option.mem_def.mp hd] at hcs
    exact hcs
  cases cs' with
  | nil => rfl
  | cons d rest => exact hhead d rfl

/-- A lexeme that is not glued to the next stays what it is. -/
theorem Follows.lexeme {c : Char} {more rest rest' : List Char} {l : Lexeme}
    (h : Follows rest rest') (hread : Grammar.lexeme c (more ++ rest) = (l, rest))
    (hsingle : isSingle l = true) : Grammar.lexeme c (more ++ rest') = (l, rest') := by
  by_cases hdigit : isDigit c = true
  · simp only [Grammar.lexeme, if_pos hdigit] at hread ⊢
    obtain ⟨written, hwritten, hnumber⟩ := h.number hread
    obtain rfl : c :: more = written := List.append_cancel_right hwritten
    exact hnumber
  by_cases hword : startsWord c = true
  · simp only [Grammar.lexeme, if_neg hdigit, if_pos hword] at hread ⊢
    obtain ⟨rfl, hrest⟩ := Prod.mk.inj hread
    have hmore := takeWhile_of_dropWhile hrest
    have hspan : Follows ((more ++ rest).dropWhile continuesWord) rest' := hrest.symm ▸ h
    obtain ⟨htake, hdrop⟩ := hspan.span (not_of_isBlank (by decide))
    rw [hmore] at htake hdrop
    rw [hmore, htake, hdrop]
  by_cases hquote : c = '"'
  · subst hquote
    simp only [Grammar.lexeme, if_neg hdigit, if_neg hword, if_true] at hread ⊢
    split at hread
    · next hbody =>
        obtain ⟨rfl, rfl⟩ := Prod.mk.inj hread
        obtain ⟨written, hwritten, hspelling⟩ := spelling_of_stringBody? hbody
        have hmore : more = written ++ ['"'] :=
          List.append_cancel_right (hwritten.trans (List.append_cons _ _ _))
        rw [hmore, List.append_assoc, List.singleton_append, hspelling.stringBody?]
    · obtain ⟨rfl, _⟩ := Prod.mk.inj hread
      cases hsingle
  · rw [lexeme_mark hdigit hword hquote] at hread ⊢
    obtain ⟨rfl, hrest⟩ := Prod.mk.inj hread
    obtain rfl : more = [] := List.append_left_eq_self.mp hrest
    have hglued : rest.head?.any (joins c) = false := by
      rw [isSingle, Bool.and_eq_true, Bool.not_eq_true'] at hsingle
      exact hsingle.1
    rw [List.nil_append, List.nil_append, hglued, h.unglued hglued]

/-- Lexemes that are tokens: none is glued to the next but the two of an operator. -/
inductive Tokenized : List Lexeme → Prop
  | nil : Tokenized []
  | single {l : Lexeme} {s : List Lexeme} :
      isSingle l = true → Tokenized s → Tokenized (l :: s)
  | operator (c d : Char) {s : List Lexeme} :
      Tokenized s → Tokenized (.mark c true :: .mark d false :: s)

theorem Tokenized.append {s t : List Lexeme} (h : Tokenized s) (h' : Tokenized t) :
    Tokenized (s ++ t) := by
  induction h with
  | nil => exact h'
  | single hl _ ih => exact .single hl ih
  | operator c d _ ih => exact .operator c d ih

theorem tokenized_signs (signs : List UnaryOp) {s : List Lexeme} (h : Tokenized s) :
    Tokenized (signs.flatMap (marks ·.symbol.toList) ++ s) := by
  induction signs with
  | nil => exact h
  | cons op ops ih => cases op <;> exact .single rfl ih

theorem tokenized_operator (op : BinaryOp) {s : List Lexeme} (h : Tokenized s) :
    Tokenized (marks op.symbol.toList ++ s) := by
  cases op <;> first
    | exact .operator _ _ h
    | exact .single rfl h

mutual

theorem Phrase.tokenized (p : Phrase) : Tokenized p.lexemes := by
  match p with
  | .null | .bool _ | .integer _ | .float _ | .string _ | .name _ => exact .single rfl .nil
  | .list items => exact .single rfl ((tokenizedItems items).append (.single rfl .nil))
  | .group inner => exact .single rfl (inner.tokenized.append (.single rfl .nil))
  | .member object _ => exact object.tokenized.append (.single rfl (.single rfl .nil))
  | .index object key =>
      exact object.tokenized.append (.single rfl (key.tokenized.append (.single rfl .nil)))
  | .call callee args =>
      exact callee.tokenized.append (.single rfl ((tokenizedItems args).append (.single rfl .nil)))
  | .signed signs operand => exact tokenized_signs signs operand.tokenized
  | .binary op left right => exact left.tokenized.append (tokenized_operator op right.tokenized)
  | .conditional test thenP elseP =>
      exact test.tokenized.append
        (.single rfl (thenP.tokenized.append (.single rfl elseP.tokenized)))

theorem Phrase.tokenizedItems (items : List Phrase) : Tokenized (lexemesItems items) := by
  match items with
  | [] => exact .nil
  | item :: more => exact item.tokenized.append (tokenizedFurther more)

theorem Phrase.tokenizedFurther (items : List Phrase) : Tokenized (lexemesFurther items) := by
  match items with
  | [] => exact .nil
  | item :: more => exact .single rfl (item.tokenized.append (tokenizedFurther more))

end

theorem tokenized_of_phrase? {source : String} {phrase : Phrase}
    (h : phrase? source = some phrase) : Tokenized (lexemes source) := by
  rcases lexemes_of_phrase? h with hlexemes | hlexemes
  · rw [hlexemes]
    exact phrase.tokenized
  · rw [hlexemes]
    exact phrase.tokenized.append (.single rfl .nil)

/-! ### Spreading a text -/

theorem isMark_left {c d : Char} (h : joins c d = true) : IsMark c ∧ c ≠ '/' := by
  unfold joins at h
  split at h
  case h_8 => cases h
  all_goals decide

theorem tokens_operator_pair {c d : Char} (h : joins c d = true) (rest : List Char) :
    tokens ([c, d] ++ rest) =
      .mark c true :: .mark d (rest.head?.any (joins d)) :: tokens rest := by
  obtain ⟨hc, hslash⟩ := isMark_left h
  obtain ⟨hd, hslash'⟩ := isMark_of_joins h
  have hglued : (d :: rest).head?.any (joins c) = true := h
  rw [List.cons_append, List.singleton_append,
    tokens_mark hc (atLexeme_of_ne _ hc.1 hslash) hglued,
    tokens_mark hd (atLexeme_of_ne _ hd.1 hslash') rfl]

theorem Follows.atLexeme {c : Char} {cs cs' : List Char} (h : Follows cs cs')
    (hcs : AtLexeme (c :: cs)) : AtLexeme (c :: cs') := by
  obtain ⟨hblank, hcomment⟩ := skipLayout_head hcs
  apply atLexeme_of_head hblank
  intro hslash hhead
  have hnot : (('/' : Char) == '/') = false :=
    h.head (p := (· == '/')) (not_of_isBlank (by decide))
      (fun d hd => beq_eq_false_iff_ne.mpr fun heq => hcomment hslash (heq ▸ hd)) '/' hhead
  cases hnot

/-- The lexemes of a token are the same in front of whatever follows. -/
theorem IsToken.tokens {token rest rest' : List Char} (h : IsToken token rest)
    (hfollows : Follows rest rest') (htokenized : Tokenized (tokens (token ++ rest))) :
    Tokenized (Grammar.tokens rest) ∧
      ∃ front, Grammar.tokens (token ++ rest) = front ++ Grammar.tokens rest ∧
        Grammar.tokens (token ++ rest') = front ++ Grammar.tokens rest' := by
  cases h with
  | @operator c d _ hjoins =>
      rw [tokens_operator_pair hjoins, tokens_operator_pair hjoins]
      rw [tokens_operator_pair hjoins] at htokenized
      generalize hglued : rest.head?.any (joins d) = glued at htokenized ⊢
      cases htokenized with
      | single hsingle _ => cases hsingle
      | operator _ _ hrest =>
          rw [hfollows.unglued hglued]
          exact ⟨hrest, [.mark c true, .mark d false], rfl, rfl⟩
  | @lexeme c more _ l hat hlexeme hunglued =>
      have htokens : Grammar.tokens (c :: (more ++ rest)) = l :: Grammar.tokens rest := by
        rw [tokens_of_atLexeme hat, hlexeme]
      rw [List.cons_append, htokens] at htokenized
      generalize Grammar.tokens rest = behind at htokens htokenized ⊢
      cases htokenized with
      | operator c _ _ => exact absurd rfl (hunglued c)
      | single hsingle hrest =>
          have hat' := (hfollows.append more).atLexeme hat
          have hlexeme' := hfollows.lexeme hlexeme hsingle
          refine ⟨hrest, [l], htokens, ?_⟩
          rw [List.cons_append, tokens_of_atLexeme hat', hlexeme']
          rfl

theorem Spread.tokens {text spread : List Char} (h : Spread text spread)
    (htokenized : Tokenized (tokens text)) : Grammar.tokens spread = Grammar.tokens text := by
  induction h with
  | @insert ins text spread hins _ _ ih =>
      exact (tokens_congr (hins.skipLayout spread)).trans (ih htokenized)
  | @blank c text spread hc _ ih =>
      have hskip := fun rest => tokens_congr (skipLayout_blank hc rest)
      rw [hskip] at htokenized ⊢
      rw [hskip, ih htokenized]
  | @comment body text spread hbody _ ih =>
      have hskip := fun rest => tokens_congr (skipLayout_line hbody false rest)
      rw [hskip] at htokenized ⊢
      rw [hskip, ih htokenized]
  | token htoken hmore ih =>
      obtain ⟨hrest, front, hfront, hfront'⟩ := htoken.tokens hmore.follows htokenized
      rw [hfront, hfront', ih hrest]
  | last _ => rfl
  | @ending last ins hlast hins _ =>
      have hnothing : Trivia ([] ++ ['\n']) := .blank rfl .nil
      have hskip := hlast.skipLayout hnothing
      rw [List.append_nil] at hskip
      exact tokens_congr ((hlast.skipLayout hins).trans hskip.symm)

theorem Relaid.tokens {source relaid : List Char} (h : Relaid source relaid)
    (htokenized : Tokenized (tokens source)) : Grammar.tokens relaid = Grammar.tokens source := by
  obtain ⟨first, spread, rfl, hfirst, hspread⟩ := h
  exact (tokens_congr (hfirst.skipLayout spread)).trans (hspread.tokens htokenized)

/-! ### The guard -/

theorem exceedsAt_of_clean {limit o q : Nat} {s : List Lexeme} (h : Clean s)
    (stray stray' : Bool) : exceedsAt limit stray o q s = exceedsAt limit stray' o q s := by
  fun_induction exceedsAt limit stray o q s with
  | case1 => rfl
  | case2 o q glued rest ih => exact ih h.tail.tail
  | case3 o q glued rest hsingle ih =>
      rw [exceedsAt, if_pos rfl, ih h.tail]
      exact hsingle
  | case4 o q c glued rest _ hquestion hopen ih =>
      rw [exceedsAt_mark hquestion, if_pos hopen, ih h.tail]
  | case5 o q c glued rest _ hquestion hopen hclose ih =>
      rw [exceedsAt_mark hquestion, if_neg hopen, if_pos hclose, ih h.tail]
  | case6 => exact absurd List.mem_cons_self (h _)
  | case7 o q c glued rest _ hquestion hopen hclose hquote ih =>
      rw [exceedsAt_mark hquestion, if_neg hopen, if_neg hclose, if_neg hquote, ih h.tail]
  | case8 o q l rest _ hmark ih => rw [exceedsAt_of_not_mark hmark, ih h.tail]

/-- The guard finds the same in two sources that have the same lexemes, when no quote among these
opens no string. -/
theorem tooNested_of_lexemes {source source' : String} (h : lexemes source' = lexemes source)
    (hclean : Clean (lexemes source)) : tooNested source' = tooNested source := by
  obtain ⟨stray, hagree⟩ := guard_agrees nestingLimit source.toList 0 0
  obtain ⟨stray', hagree'⟩ := guard_agrees nestingLimit source'.toList 0 0
  change _ = exceedsAt _ _ _ _ (lexemes source) at hagree
  change _ = exceedsAt _ _ _ _ (lexemes source') at hagree'
  rw [tooNested, tooNested, hagree, hagree', h, exceedsAt_of_clean hclean stray' stray]

end Grammar

open Grammar

/-- Layout never changes meaning. However trivia are put into a source that the grammar accepts,
between its tokens, in front of the first or behind the last, the grammar reads the same phrase and
parsing ends in the same way: with the same tree, or with the same refusal. -/
theorem layout_keeps_meaning {source relaid : String} {phrase : Phrase}
    (hphrase : phrase? source = some phrase) (h : Relaid source.toList relaid.toList) :
    phrase? relaid = some phrase ∧ parse relaid = parse source := by
  have hlexemes : lexemes relaid = lexemes source := h.tokens (tokenized_of_phrase? hphrase)
  have hguard := tooNested_of_lexemes hlexemes (balanced_of_phrase? hphrase).clean
  have hsame : phrase? relaid = phrase? source := by rw [phrase?, hlexemes, ← phrase?]
  refine ⟨hsame.trans hphrase, ?_⟩
  simp only [parse, hguard, hsame, hphrase]

/-- Comments with a quote, a question mark and more brackets than the guard allows, one of them
behind a slash and one at the end without its newline. -/
theorem layout_keeps_meaning_of_comments :
    let quoted := ['"', '(', '"']
    let ending := ' ' :: '/' :: '/' :: List.replicate 33 '('
    let first := ['/', '/', '?', '(', '\n']
    let inner := ['\t', '/', '/', '"', '[', '\n']
    let source := String.ofList ('a' :: '/' :: 'b' :: '?' :: '?' :: quoted)
    let relaid := String.ofList
      (first ++ 'a' :: '/' :: (inner ++ 'b' :: ('\n' :: '?' :: '?' :: (quoted ++ ending))))
    (phrase? source).isSome = true ∧ Relaid source.toList relaid.toList ∧
      parse relaid = parse source := by
  intro quoted ending first inner source relaid
  have hending : Spread [] ending :=
    @Spread.ending [] ending (.inl rfl)
      (.blank rfl (@Trivia.comment (List.replicate 33 '(') [] (by decide) .nil)) rfl
  have hquoted : Spread quoted (quoted ++ ending) :=
    @Spread.token quoted [] ending
      (@IsToken.lexeme '"' ['(', '"'] [] (.string "(") rfl rfl fun _ => Lexeme.noConfusion) hending
  have hoperator : Spread ('?' :: '?' :: quoted) ('\n' :: '?' :: '?' :: (quoted ++ ending)) :=
    @Spread.insert ['\n'] _ _ (.blank rfl .nil) rfl
      (@Spread.token ['?', '?'] _ _ (.operator quoted rfl) hquoted)
  have hdivisor : Spread ('b' :: '?' :: '?' :: quoted)
      (inner ++ 'b' :: '\n' :: '?' :: '?' :: (quoted ++ ending)) :=
    @Spread.insert inner _ _
      (.blank rfl (@Trivia.comment ['"', '['] [] (by decide) .nil)) rfl
      (@Spread.token ['b'] _ _
        (@IsToken.lexeme 'b' [] _ (.word "b") rfl rfl fun _ => Lexeme.noConfusion) hoperator)
  have hdivision : Spread ('a' :: '/' :: 'b' :: '?' :: '?' :: quoted)
      ('a' :: '/' :: (inner ++ 'b' :: '\n' :: '?' :: '?' :: (quoted ++ ending))) :=
    @Spread.token ['a'] _ _
      (@IsToken.lexeme 'a' [] _ (.word "a") rfl rfl fun _ => Lexeme.noConfusion)
      (@Spread.token ['/'] _ _
        (@IsToken.lexeme '/' [] _ (.mark '/' false) rfl rfl fun _ h => by cases h) hdivisor)
  have hrelaid : Relaid source.toList relaid.toList := by
    rw [String.toList_ofList, String.toList_ofList]
    exact ⟨first, _, rfl, @Trivia.comment ['?', '('] [] (by decide) .nil, hdivision⟩
  obtain ⟨phrase, hphrase⟩ :=
    Option.isSome_iff_exists.mp (show (phrase? source).isSome = true by decide +kernel)
  exact ⟨Option.isSome_iff_exists.mpr ⟨phrase, hphrase⟩, hrelaid,
    (layout_keeps_meaning hphrase hrelaid).2⟩

end Scriptlet
