import ScriptTree.Proofs.Text.Written
import ScriptTree.Yaml.Document

/-!
# Documents of plain lines

A text may consist of lines with a name, a colon, a space and a word, all of whose characters stand
for themselves.  Such a text is a document: a mapping with one entry for each line, in the order of
the lines.
-/

namespace ScriptTree.Yaml

/-! ## Plain characters -/

section Characters

variable {c : Char}

theorem ne_of_isPlain (h : isPlain c = true) {d : Char} (hd : isPlain d = false) :
    (c == d) = false := by
  rw [beq_eq_false_iff_ne]
  rintro rfl
  rw [h] at hd
  cases hd

theorem isBreak_of_isPlain (h : isPlain c = true) : isBreak c = false := by
  rw [isBreak, ne_of_isPlain h (by decide), ne_of_isPlain h (by decide),
    ne_of_isPlain h (by decide)]
  rfl

theorem isBlank_of_isPlain (h : isPlain c = true) : isBlank c = false := by
  rw [isBlank, ne_of_isPlain h (by decide), ne_of_isPlain h (by decide)]
  rfl

theorem endsWord_of_isPlain (h : isPlain c = true) (rest : List Char) :
    endsWord (c :: rest) = false := by
  rw [endsWord, isBlank_of_isPlain h, isBreak_of_isPlain h]
  rfl

/-- Plain characters are among the ASCII characters that print. -/
theorem toNat_of_isPlain (h : isPlain c = true) : 43 ≤ c.toNat ∧ c.toNat ≤ 122 := by
  have hbetween : ∀ {a b : Char}, a ≤ c ∧ c ≤ b → 43 ≤ a.toNat → b.toNat ≤ 122 →
      43 ≤ c.toNat ∧ c.toNat ≤ 122 := fun hc ha hb =>
    ⟨Nat.le_trans ha (UInt32.le_iff_toNat_le.mp hc.1),
      Nat.le_trans (UInt32.le_iff_toNat_le.mp hc.2) hb⟩
  have hboth : ∀ {p q : Prop} [Decidable p] [Decidable q], (decide p && decide q) = true → p ∧ q :=
    fun h => ((Bool.and_eq_true _ _).mp h).imp of_decide_eq_true of_decide_eq_true
  simp only [isPlain, isWordChar, Char.isAlphanum, Bool.or_eq_true, beq_iff_eq] at h
  rcases h with (((halpha | hdigit) | rfl) | rfl) | rfl
  · rcases (Bool.or_eq_true _ _).mp halpha with hupper | hlower
    · exact @hbetween 'A' 'Z' (of_decide_eq_true hupper) (by decide) (by decide)
    · exact @hbetween 'a' 'z' (hboth hlower) (by decide) (by decide)
  · exact @hbetween '0' '9' (hboth hdigit) (by decide) (by decide)
  all_goals decide

theorem isAllowed_of_isPlain (h : isPlain c = true) : isAllowed c = true := by
  obtain ⟨hleast, hmost⟩ := toNat_of_isPlain h
  have hfirst : ' ' ≤ c := UInt32.le_iff_toNat_le.mpr (Nat.le_trans (by decide) hleast)
  have hlast : c ≤ '~' := UInt32.le_iff_toNat_le.mpr (Nat.le_trans hmost (by decide))
  simp [isAllowed, hfirst, hlast]

theorem utf8Size_of_isPlain (h : isPlain c = true) : c.utf8Size = 1 := by
  obtain ⟨-, hmost⟩ := toNat_of_isPlain h
  exact Char.utf8Size_eq_one_iff.mpr
    (UInt32.le_iff_toNat_le.mpr (Nat.le_trans hmost (by decide)))

end Characters

/-! ## Words -/

theorem octets_eq_length {cs : List Char} (h : ∀ c ∈ cs, isPlain c = true) :
    octets cs = cs.length := by
  induction cs with
  | nil => rfl
  | cons c cs ih =>
      obtain ⟨hc, hcs⟩ := List.forall_mem_cons.mp h
      rw [octets, utf8Size_of_isPlain hc, ih hcs, List.length_cons, Nat.add_comm]

/-- A text whose line breaks have one form stays as it is. -/
theorem normalizeBreaks_eq {cs : List Char} (h : ∀ c ∈ cs, c ≠ '\r' ∧ c ≠ '\u0085') :
    normalizeBreaks cs = cs := by
  induction cs with
  | nil => rfl
  | cons c cs ih =>
      obtain ⟨⟨hreturn, hnext⟩, hcs⟩ := List.forall_mem_cons.mp h
      rw [normalizeBreaks, ih hcs]
      · simp [hreturn, hnext]
      · rintro rest rfl
        exact absurd rfl hreturn

namespace Plain

/-- A plain scalar goes on with plain characters. -/
theorem go_append {cs : List Char} (h : ∀ c ∈ cs, isPlain c = true) (least : Int)
    (words rest : List Char) (mark : Mark) :
    go false least words .none (cs ++ rest) mark =
      go false least (cs.reverse ++ words) .none rest ⟨mark.line, mark.column + cs.length⟩ := by
  induction cs generalizing words mark with
  | nil => rfl
  | cons c cs ih =>
      obtain ⟨hc, hcs⟩ := List.forall_mem_cons.mp h
      have hcolon : (c == ':') = false := ne_of_isPlain hc (by decide)
      have hstep : go false least words .none (c :: (cs ++ rest)) mark =
          go false least (c :: words) .none (cs ++ rest) mark.right := by
        rw [go, isBreak_of_isPlain hc, isBlank_of_isPlain hc, endsAt, hcolon]
        rfl
      rw [List.cons_append, hstep, ih hcs, List.reverse_cons, List.append_assoc, Mark.right,
        List.length_cons, Nat.add_right_comm]
      rfl

/-- A name ends before its colon. -/
theorem read?_name {name : List Char} (h : ∀ c ∈ name, isPlain c = true) (least : Int)
    (rest : List Char) (mark : Mark) :
    read? false least ⟨name ++ ':' :: ' ' :: rest, mark⟩ =
      some ⟨name, false, ⟨':' :: ' ' :: rest, ⟨mark.line, mark.column + name.length⟩⟩⟩ := by
  rw [read?, go_append h, List.append_nil]
  change some (Result.mk name.reverse.reverse _ _) = _
  rw [List.reverse_reverse]
  rfl

/-- A word ends with its line if the next line starts further to the left. -/
theorem read?_word {word : List Char} (h : ∀ c ∈ word, isPlain c = true) {least : Int}
    (hleast : 0 < least) {rest : List Char} (hrest : ∀ c ∈ rest.head?, isPlain c = true)
    (mark : Mark) :
    read? false least ⟨word ++ '\n' :: rest, mark⟩ =
      some ⟨word, true, ⟨rest, mark.newLine⟩⟩ := by
  have hend : go false least (word.reverse ++ []) .none ('\n' :: rest)
        ⟨mark.line, mark.column + word.length⟩ =
      some ⟨(word.reverse ++ []).reverse, true, ⟨rest, mark.newLine⟩⟩ := by
    cases rest with
    | nil => rfl
    | cons c rest =>
        have hc := hrest c rfl
        have hends : endsAfterGap false least (c :: rest) mark.newLine = true := by
          simp [endsAfterGap, Mark.newLine, hleast]
        change go false least _ (.breaks (some '\n') []) (c :: rest) mark.newLine = _
        rw [go, isBreak_of_isPlain hc, isBlank_of_isPlain hc, hends]
        rfl
  rw [read?, go_append h, hend, List.append_nil, List.reverse_reverse]

end Plain

/-! ## Lines -/

namespace PlainLine

/-- The tokens of the line with a number. -/
def tokens (i : Nat) (l : PlainLine) : List Token :=
  [⟨.key, ⟨i, 0⟩⟩, ⟨.scalar .plain (String.ofList l.name), ⟨i, 0⟩⟩,
    ⟨.value, ⟨i, l.name.length⟩⟩,
    ⟨.scalar .plain (String.ofList l.word), ⟨i, l.name.length + 2⟩⟩]

/-- The entry of the line with a number. -/
def entry (i : Nat) (l : PlainLine) : Node × Node :=
  (.scalar ⟨i, 0⟩ .none .plain (String.ofList l.name),
    .scalar ⟨i, l.name.length + 2⟩ .none .plain (String.ofList l.word))

/-- The tokens of lines, the first of which has a number. -/
def tokensFrom : Nat → List PlainLine → List Token
  | _, [] => []
  | i, l :: lines => l.tokens i ++ tokensFrom (i + 1) lines

/-- The entries of lines, the first of which has a number. -/
def entriesFrom : Nat → List PlainLine → List (Node × Node)
  | _, [] => []
  | i, l :: lines => l.entry i :: entriesFrom (i + 1) lines

section Lines

variable (lines : List PlainLine)

theorem head?_textOf : ∀ c ∈ (textOf lines).head?, isPlain c = true := by
  cases lines with
  | nil => exact fun c hc => nomatch hc
  | cons l lines =>
      intro c hc
      refine l.isWord_name.plain c ?_
      cases hname : l.name with
      | nil => exact absurd hname l.isWord_name.ne_nil
      | cons d name =>
          rw [textOf, List.flatMap_cons, PlainLine.text, hname] at hc
          obtain rfl := Option.some.inj hc
          exact List.mem_cons_self

/-- A line has at least three characters. -/
theorem length_textOf : 3 * lines.length ≤ (textOf lines).length := by
  induction lines with
  | nil => exact Nat.le_refl 0
  | cons l lines ih =>
      rw [textOf, List.flatMap_cons, List.length_append, List.length_cons]
      have hline : 3 ≤ l.text.length := by
        simp only [PlainLine.text, List.length_append, List.length_cons]
        omega
      have hrest : (lines.flatMap PlainLine.text).length = (textOf lines).length := rfl
      omega

theorem forall_mem_textOf {P : Char → Prop} (hplain : ∀ c, isPlain c = true → P c)
    (hcolon : P ':') (hblank : P ' ') (hbreak : P '\n') :
    ∀ c ∈ textOf lines, P c := by
  intro c hc
  obtain ⟨l, -, hc⟩ := List.mem_flatMap.mp hc
  simp only [PlainLine.text, List.mem_append, List.mem_cons, List.not_mem_nil, or_false] at hc
  rcases hc with hc | rfl | rfl | hc | rfl
  · exact hplain c (l.isWord_name.plain c hc)
  · exact hcolon
  · exact hblank
  · exact hplain c (l.isWord_word.plain c hc)
  · exact hbreak

theorem length_tokensFrom (i : Nat) : (tokensFrom i lines).length = 4 * lines.length := by
  induction lines generalizing i with
  | nil => rfl
  | cons l lines ih =>
      rw [tokensFrom, List.length_append, ih, List.length_cons, Nat.mul_succ, Nat.add_comm]
      rfl

end Lines

end PlainLine

open PlainLine

/-! ## From lines to tokens -/

namespace Lexer

/-- The reader stands at the first character of a token. -/
theorem skipGap_eq {c : Char} (hbreak : isBreak c = false) (hblank : isBlank c = false)
    (hmark : (c == '\ufeff') = false) (hsharp : (c == '#') = false) (inFlow keyAllowed : Bool)
    (rest : List Char) (mark : Mark) :
    skipGap inFlow keyAllowed false (c :: rest) mark = (⟨c :: rest, mark⟩, keyAllowed) := by
  obtain ⟨hspace, htab⟩ := Bool.or_eq_false_iff.mp hblank
  rw [skipGap, hbreak, hspace, htab, hmark, hsharp]
  rfl

theorem skipGap_of_isPlain {rest : List Char} (h : ∀ c ∈ rest.head?, isPlain c = true)
    (inFlow keyAllowed : Bool) (mark : Mark) :
    skipGap inFlow keyAllowed false rest mark = (⟨rest, mark⟩, keyAllowed) := by
  cases rest with
  | nil => rfl
  | cons c rest =>
      have hc := h c rfl
      exact skipGap_eq (isBreak_of_isPlain hc) (isBlank_of_isPlain hc)
        (ne_of_isPlain hc (by decide)) (ne_of_isPlain hc (by decide)) inFlow keyAllowed rest mark

/-- A marker begins with the sign that it is made of. -/
theorem startsMarker_eq_false {c d : Char} (h : (c == d) = false) (rest : List Char) :
    startsMarker d (c :: rest) = false := by
  rcases rest with _ | ⟨_, _ | ⟨_, rest⟩⟩
  · rfl
  · rfl
  · rw [startsMarker, h]
    rfl

/-- A word may begin a plain scalar. -/
theorem mayStart_of_isWord {c : Char} {cs : List Char} (h : IsWord (c :: cs)) (rest : List Char) :
    Plain.mayStart false (c :: (cs ++ rest)) = true := by
  have hc := h.plain c List.mem_cons_self
  rw [Plain.mayStart, endsWord_of_isPlain hc]
  cases hhyphen : c == '-' with
  | true =>
      cases cs with
      | nil => exact absurd (congrArg (fun c => [c]) (beq_iff_eq.mp hhyphen)) h.ne_hyphen
      | cons d cs =>
          rw [List.cons_append, List.head?_cons, Option.any_some,
            isBlank_of_isPlain (h.plain d (by simp))]
          simp
  | false =>
      have hsigns : "-?:,[]\x7b\x7d#&*!|>'\"%@`".toList.all
          (fun d => d == '-' || !isPlain d) = true := rfl
      have hc' : "-?:,[]\x7b\x7d#&*!|>'\"%@`".toList.contains c = false := by
        rw [List.contains_eq_mem, decide_eq_false_iff_not]
        intro hmem
        have hsign := List.all_eq_true.mp hsigns c hmem
        rw [hhyphen, hc] at hsign
        cases hsign
      rw [hc']
      rfl

/-- A word is read as a plain scalar. -/
theorem token?_word {l : Lexer} {word rest : List Char} (h : IsWord word)
    (hflow : l.inFlow = false) (hrest : l.cursor.rest = word ++ rest)
    (hmarker : l.cursor.mark.column = 0 → word.head? ≠ some '-') :
    l.token? = l.plain? := by
  cases word with
  | nil => exact absurd rfl h.ne_nil
  | cons c cs =>
      have hc := h.plain c List.mem_cons_self
      have hstart :
          (l.cursor.mark.column == 0 && startsMarker '-' (c :: (cs ++ rest))) = false := by
        rw [Bool.and_eq_false_imp, beq_iff_eq]
        intro hcolumn
        refine startsMarker_eq_false (beq_eq_false_iff_ne.mpr ?_) _
        rintro rfl
        exact hmarker hcolumn rfl
      have hitem : (c == '-' && endsWord (cs ++ rest)) = false := by
        cases cs with
        | nil =>
            rw [Bool.and_eq_false_imp, beq_iff_eq]
            rintro rfl
            exact absurd rfl h.ne_hyphen
        | cons d cs =>
            rw [List.cons_append, endsWord_of_isPlain (h.plain d (by simp)), Bool.and_false]
      have hend : startsMarker '.' (c :: (cs ++ rest)) = false :=
        startsMarker_eq_false (ne_of_isPlain hc (by decide)) _
      rw [token?, hrest, List.cons_append]
      simp (disch := decide) only [hstart, hitem, hend, mayStart_of_isWord h, hflow,
        ne_of_isPlain hc, Bool.false_and, Bool.and_false, Bool.false_eq_true, if_false, if_true]

/-- A colon before a blank announces a value. -/
theorem token?_colon {l : Lexer} {rest : List Char} (hrest : l.cursor.rest = ':' :: ' ' :: rest) :
    l.token? = l.value? := by
  have hends : endsWord (' ' :: rest) = true := rfl
  rw [token?, hrest]
  simp [startsMarker_eq_false, hends]

/-! ### A mapping at the left margin -/

/-- The reader outside brackets, before and within a mapping at the left margin. -/
def atMapping (opened : Bool) (cursor : Cursor) (emitted : List Token) (keyAllowed : Bool)
    (pending : Option PendingKey) : Lexer :=
  ⟨cursor, emitted, if opened then 0 else -1, if opened then [-1] else [], keyAllowed, pending, []⟩

/-- The token that opens the mapping, unless it is open. -/
def opening (opened : Bool) (i : Nat) : List Token :=
  if opened then [] else [⟨.blockMappingStart, ⟨i, 0⟩⟩]

/-- No block collection ends at a token that does not stand left of it. -/
theorem closeBlocks_eq {l : Lexer} {column : Int} (h : ¬ column < l.indent) :
    l.closeBlocks column = l := by
  obtain ⟨cursor, emitted, indent, outer, keyAllowed, pending, outerPending⟩ := l
  rw [closeBlocks]
  cases outerPending with
  | cons => rfl
  | nil =>
      cases outer with
      | nil => rfl
      | cons next outer =>
          rw [closeGo, if_neg h]
          rfl

/-- Nothing stands left of the margin. -/
theorem closeBlocks_atMapping (opened : Bool) (cursor : Cursor) (emitted : List Token)
    (keyAllowed : Bool) (pending : Option PendingKey) (column : Nat) :
    (atMapping opened cursor emitted keyAllowed pending).closeBlocks column =
      atMapping opened cursor emitted keyAllowed pending := by
  refine closeBlocks_eq (Int.not_lt.mpr (Int.le_trans ?_ (Int.natCast_nonneg column)))
  cases opened with
  | false => exact Int.neg_nonpos_of_nonneg (by decide : (0 : Int) ≤ 1)
  | true => exact Int.le_refl 0

theorem toToken_eq {l : Lexer} {cursor : Cursor} {keyAllowed : Bool}
    (h : skipGap l.inFlow l.keyAllowed false l.cursor.rest l.cursor.mark = (cursor, keyAllowed)) :
    l.toToken = { l with cursor, keyAllowed } := by
  rw [toToken, h]

/-- A round takes a token and what follows it up to the next one. -/
theorem run_atMapping {opened opened' : Bool} {cursor taken next : Cursor}
    {emitted emitted' : List Token} {k k₁ k₂ : Bool} {p p₁ p₂ : Option PendingKey}
    (hrest : cursor.rest ≠ [])
    (htaken : (atMapping opened cursor emitted k p).token? =
      some (atMapping opened' taken emitted' k₁ p₁))
    (hgap : skipGap false k₁ false taken.rest taken.mark = (next, k₂))
    (hexpire : expire? cursor next p₁ = some p₂) (fuel : Nat) :
    run (fuel + 1) (atMapping opened cursor emitted k p) =
      run fuel (atMapping opened' next emitted' k₂ p₂) := by
  have hsome : (atMapping opened cursor emitted k p).cursor.rest.isEmpty = false :=
    List.isEmpty_eq_false_iff.mpr hrest
  have hnext : (atMapping opened' taken emitted' k₁ p₁).toToken =
      atMapping opened' next emitted' k₂ p₁ :=
    toToken_eq hgap
  have hkeys : (atMapping opened' next emitted' k₂ p₁).expireKeys? cursor =
      some (atMapping opened' next emitted' k₂ p₂) := by
    change (expire? cursor next p₁ >>= fun pending => _) = _
    rw [hexpire]
    rfl
  rw [run, closeBlocks_atMapping, hsome, htaken]
  change (atMapping opened' taken emitted' k₁ p₁).toToken.expireKeys? cursor >>= run fuel = _
  rw [hnext, hkeys]
  rfl

/-! ### The three tokens of a line -/

/-- A possible key stays one while its line goes on, up to a number of octets. -/
theorem expire?_some {since now : Cursor} {k : PendingKey} (hline : since.mark.line = now.mark.line)
    {age : Nat} (hage : k.age + octets (since.between now) = age) (hyoung : age ≤ 1024) :
    expire? since now (some k) = some (some { k with age }) := by
  have hkept : (since.mark.line < now.mark.line || 1024 < age : Bool) = false := by
    simp [hline, hyoung]
  subst hage
  change (if (_ || _) = true then _ else _) = _
  rw [hkept]
  rfl

/-- The name may be a key. -/
theorem run_name (l : PlainLine) (opened : Bool) (i : Nat) (rest : List Char)
    (emitted : List Token) (fuel : Nat) :
    run (fuel + 1)
        (atMapping opened ⟨l.name ++ ':' :: ' ' :: rest, ⟨i, 0⟩⟩ emitted true none) =
      run fuel (atMapping opened ⟨':' :: ' ' :: rest, ⟨i, l.name.length⟩⟩
        (⟨.scalar .plain (String.ofList l.name), ⟨i, 0⟩⟩ :: emitted) false
        (some ⟨emitted.length, ⟨i, 0⟩, l.name.length, opened⟩)) := by
  have htaken :
      (atMapping opened ⟨l.name ++ ':' :: ' ' :: rest, ⟨i, 0⟩⟩ emitted true none).token? =
        some (atMapping opened ⟨':' :: ' ' :: rest, ⟨i, l.name.length⟩⟩
          (⟨.scalar .plain (String.ofList l.name), ⟨i, 0⟩⟩ :: emitted) false
          (some ⟨emitted.length, ⟨i, 0⟩, 0, opened⟩)) := by
    rw [token?_word l.isWord_name rfl rfl fun _ => l.head_name, plain?]
    change (Plain.read? false _ ⟨l.name ++ ':' :: ' ' :: rest, ⟨i, 0⟩⟩ >>= _) = _
    rw [Plain.read?_name l.isWord_name.plain, Nat.zero_add]
    cases opened <;> rfl
  refine run_atMapping (by simp) htaken (by rfl) (expire?_some (by rfl) ?_ l.length_name) fuel
  change 0 + octets ((l.name ++ ':' :: ' ' :: rest).take (l.name.length - 0)) = l.name.length
  rw [Nat.zero_add, Nat.sub_zero, List.take_left, octets_eq_length l.isWord_name.plain]

/-- A token is put before those that came later. -/
theorem insert_eq {l : Lexer} {later earlier : List Token} (h : l.emitted = later ++ earlier)
    (kind : Token.Kind) (mark : Mark) :
    l.insert earlier.length kind mark =
      { l with emitted := later ++ ⟨kind, mark⟩ :: earlier } := by
  rw [insert, h, List.length_append, Nat.add_sub_cancel, List.take_left, List.drop_left]

/-- The colon makes a key of the name, and the first key opens the mapping. -/
theorem value?_atMapping (opened : Bool) (i column : Nat) (rest : List Char) (name : Token)
    (emitted : List Token) (age : Nat) (required : Bool) :
    (atMapping opened ⟨':' :: rest, ⟨i, column⟩⟩ (name :: emitted) false
        (some ⟨emitted.length, ⟨i, 0⟩, age, required⟩)).value? =
      some (atMapping true ⟨rest, ⟨i, column + 1⟩⟩
        (⟨.value, ⟨i, column⟩⟩ :: name :: ⟨.key, ⟨i, 0⟩⟩ :: (opening opened i ++ emitted))
        false none) := by
  simp only [value?, atMapping]
  rw [@insert_eq _ [name] emitted rfl, openBlock]
  cases opened with
  | true => rfl
  | false =>
      rw [if_pos (by rfl), @insert_eq _ [name, ⟨.key, ⟨i, 0⟩⟩] emitted rfl]
      rfl

theorem run_colon (opened : Bool) (i column : Nat) {rest : List Char}
    (hrest : ∀ c ∈ rest.head?, isPlain c = true) (name : Token) (emitted : List Token) (age : Nat)
    (required : Bool) (fuel : Nat) :
    run (fuel + 1) (atMapping opened ⟨':' :: ' ' :: rest, ⟨i, column⟩⟩ (name :: emitted) false
        (some ⟨emitted.length, ⟨i, 0⟩, age, required⟩)) =
      run fuel (atMapping true ⟨rest, ⟨i, column + 2⟩⟩
        (⟨.value, ⟨i, column⟩⟩ :: name :: ⟨.key, ⟨i, 0⟩⟩ :: (opening opened i ++ emitted))
        false none) := by
  have htaken := (token?_colon rfl).trans
    (value?_atMapping opened i column (' ' :: rest) name emitted age required)
  -- The blank behind the colon is skipped, and the word behind it is not.
  exact run_atMapping (by simp) htaken (skipGap_of_isPlain hrest false false _) rfl fuel

/-- The word ends with its line, and the next line may be a key again. -/
theorem run_word (l : PlainLine) (i column : Nat) {rest : List Char}
    (hrest : ∀ c ∈ rest.head?, isPlain c = true) (emitted : List Token) (fuel : Nat) :
    run (fuel + 1) (atMapping true ⟨l.word ++ '\n' :: rest, ⟨i, column + 1⟩⟩ emitted false none) =
      run fuel (atMapping true ⟨rest, ⟨i + 1, 0⟩⟩
        (⟨.scalar .plain (String.ofList l.word), ⟨i, column + 1⟩⟩ :: emitted) true none) := by
  have htaken :
      (atMapping true ⟨l.word ++ '\n' :: rest, ⟨i, column + 1⟩⟩ emitted false none).token? =
        some (atMapping true ⟨rest, ⟨i + 1, 0⟩⟩
          (⟨.scalar .plain (String.ofList l.word), ⟨i, column + 1⟩⟩ :: emitted) true none) := by
    rw [token?_word l.isWord_word rfl rfl fun h => absurd h (Nat.succ_ne_zero column), plain?]
    change (Plain.read? false 1 ⟨l.word ++ '\n' :: rest, ⟨i, column + 1⟩⟩ >>= _) = _
    rw [Plain.read?_word l.isWord_word.plain (by decide) hrest]
    rfl
  exact run_atMapping (by simp) htaken (skipGap_of_isPlain hrest false true _) rfl fuel

/-! ### All lines -/

/-- A line is read in three rounds. -/
theorem run_line (l : PlainLine) (lines : List PlainLine) (opened : Bool) (i : Nat)
    (emitted : List Token) (fuel : Nat) :
    run (fuel + 3) (atMapping opened ⟨textOf (l :: lines), ⟨i, 0⟩⟩ emitted true none) =
      run fuel (atMapping true ⟨textOf lines, ⟨i + 1, 0⟩⟩
        ((opening opened i ++ l.tokens i).reverse ++ emitted) true none) := by
  have htext : textOf (l :: lines) = l.name ++ ':' :: ' ' :: (l.word ++ '\n' :: textOf lines) := by
    simp [textOf, PlainLine.text]
  have hword : ∀ c ∈ (l.word ++ '\n' :: textOf lines).head?, isPlain c = true := by
    cases hword : l.word with
    | nil => exact absurd hword l.isWord_word.ne_nil
    | cons d word =>
        intro c hc
        obtain rfl := Option.some.inj hc
        exact l.isWord_word.plain d (hword ▸ List.mem_cons_self)
  rw [htext, run_name, run_colon opened i l.name.length hword,
    run_word l i (l.name.length + 1) (head?_textOf lines)]
  congr 2
  cases opened <;> rfl

/-- Lines within the mapping are read to the end of the text, which closes the mapping. -/
theorem run_lines (lines : List PlainLine) (i : Nat) (emitted : List Token) (fuel : Nat) :
    run (3 * lines.length + fuel + 1) (atMapping true ⟨textOf lines, ⟨i, 0⟩⟩ emitted true none) =
      some (emitted.reverse ++ tokensFrom i lines ++
        [⟨.blockEnd, ⟨i + lines.length, 0⟩⟩, ⟨.textEnd, ⟨i + lines.length, 0⟩⟩]) := by
  induction lines generalizing i emitted with
  | nil =>
      have hend : run (fuel + 1) (atMapping true ⟨[], ⟨i, 0⟩⟩ emitted true none) =
          some (⟨.textEnd, ⟨i, 0⟩⟩ :: ⟨.blockEnd, ⟨i, 0⟩⟩ :: emitted).reverse := rfl
      rw [List.length_nil, Nat.mul_zero, Nat.zero_add, textOf, List.flatMap_nil, hend, tokensFrom]
      simp
  | cons l lines ih =>
      have hfuel : 3 * (l :: lines).length + fuel + 1 = 3 * lines.length + fuel + 1 + 3 := by
        rw [List.length_cons]
        omega
      rw [hfuel, run_line, ih, tokensFrom, List.length_cons, List.reverse_append,
        List.reverse_reverse]
      simp only [opening, if_true, List.nil_append, List.append_assoc, Nat.add_assoc,
        Nat.add_comm 1]

end Lexer

theorem Token.ofText?_lines {lines : List PlainLine} (h : lines ≠ []) :
    Token.ofText? (String.ofList (textOf lines)) =
      some (⟨.blockMappingStart, ⟨0, 0⟩⟩ :: tokensFrom 0 lines ++
        [⟨.blockEnd, ⟨lines.length, 0⟩⟩, ⟨.textEnd, ⟨lines.length, 0⟩⟩]) := by
  have hallowed : (textOf lines).all isAllowed = true :=
    List.all_eq_true.mpr (forall_mem_textOf lines (fun _ => isAllowed_of_isPlain) (by decide)
      (by decide) (by decide))
  have hbreaks : normalizeBreaks (textOf lines) = textOf lines := by
    refine normalizeBreaks_eq (forall_mem_textOf lines (fun c hc => ⟨?_, ?_⟩) (by decide)
      (by decide) (by decide))
    · exact beq_eq_false_iff_ne.mp (ne_of_isPlain hc (by decide))
    · exact beq_eq_false_iff_ne.mp (ne_of_isPlain hc (by decide))
  have hstart : (Lexer.start (textOf lines)).toToken =
      Lexer.atMapping false ⟨textOf lines, ⟨0, 0⟩⟩ [] true none := by
    rw [Lexer.start, Cursor.start, hbreaks]
    exact Lexer.toToken_eq (Lexer.skipGap_of_isPlain (head?_textOf lines) _ _ _)
  rw [Token.ofText?, String.toList_ofList, if_pos hallowed, hstart, String.length_ofList]
  cases lines with
  | nil => exact absurd rfl h
  | cons l lines =>
      have hlength := length_textOf (l :: lines)
      rw [List.length_cons] at hlength
      obtain ⟨fuel, hfuel⟩ := Nat.exists_eq_add_of_le
        (by omega : 3 * lines.length + 1 + 3 ≤ (textOf (l :: lines)).length + 1)
      have hrounds : (textOf (l :: lines)).length + 1 = 3 * lines.length + fuel + 1 + 3 := by
        omega
      rw [hrounds, Lexer.run_line, Lexer.run_lines, tokensFrom]
      simp [Lexer.opening, Nat.add_comm]

/-! ## From tokens to a document -/

namespace Document

/-- An entry of a mapping whose key and value are plain scalars. -/
theorem blockMapping_line (l : PlainLine) (i fuel : Nat) (rest : List Token)
    (anchors : List (String × Nat)) :
    blockMapping .default (fuel + 2) ⟨l.tokens i ++ rest, anchors⟩ =
      (blockMapping .default (fuel + 1) ⟨rest, anchors⟩).bind fun (entries, p) =>
        some (l.entry i :: entries, p) := rfl

theorem blockMapping_lines (lines : List PlainLine) (i fuel : Nat) (last : Mark)
    (rest : List Token) (anchors : List (String × Nat)) :
    blockMapping .default (lines.length + fuel + 1)
        ⟨tokensFrom i lines ++ ⟨.blockEnd, last⟩ :: rest, anchors⟩ =
      some (entriesFrom i lines, ⟨rest, anchors⟩) := by
  induction lines generalizing i with
  | nil =>
      rw [List.length_nil, Nat.zero_add]
      rfl
  | cons l lines ih =>
      rw [List.length_cons, tokensFrom, List.append_assoc,
        (by omega : lines.length + 1 + fuel + 1 = lines.length + fuel + 2), blockMapping_line, ih]
      rfl

/-- Lines are a mapping with an entry for each. -/
theorem ofText?_lines {lines : List PlainLine} (h : lines ≠ []) :
    ofText? (String.ofList (textOf lines)) =
      some ⟨.mapping ⟨0, 0⟩ .none (entriesFrom 0 lines)⟩ := by
  obtain ⟨tokens, htokens⟩ : ∃ tokens, tokens =
      ⟨.blockMappingStart, ⟨0, 0⟩⟩ :: tokensFrom 0 lines ++
        [⟨.blockEnd, ⟨lines.length, 0⟩⟩, ⟨.textEnd, ⟨lines.length, 0⟩⟩] := ⟨_, rfl⟩
  have hcontent : ∀ fuel, (content (lines.length + fuel + 2)).run ⟨tokens, []⟩ =
      some (.mapping ⟨0, 0⟩ .none (entriesFrom 0 lines),
        ⟨[⟨.textEnd, ⟨lines.length, 0⟩⟩], []⟩) := by
    intro fuel
    rw [htokens]
    change (blockMapping .default (lines.length + fuel + 1)
      ⟨tokensFrom 0 lines ++ _, []⟩).bind _ = _
    rw [blockMapping_lines]
    rfl
  obtain ⟨fuel, hfuel⟩ : ∃ fuel, 2 * tokens.length + 2 = lines.length + fuel + 2 := by
    have hlength : tokens.length = 4 * lines.length + 3 := by
      rw [htokens, List.cons_append, List.length_cons, List.length_append, length_tokensFrom]
      rfl
    exact ⟨7 * lines.length + 6, by omega⟩
  rw [ofText?, Token.ofText?_lines h, ← htokens]
  change ofTokens? tokens = _
  rw [ofTokens?, hfuel, hcontent]
  rfl

end Document

end ScriptTree.Yaml
