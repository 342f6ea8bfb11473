import SearchSpace.Expr

/-!
# Reading an expression off its text

Names may be anything, so the text of an expression does not always tell what it is the text of: a
variable may be called `5`. If no name looks like a number or contains a character that separates
words, the text tells the expression, but for one thing: a sum and a product of one operand look the
same. They have the same value.
-/

namespace SearchSpace

/-- The characters that separate the words of a text. -/
def isSeparator (c : Char) : Bool := c == ' ' || c == '(' || c == ')' || c == ':' || c == '}'

/-- A name that can be told from a number and from what surrounds it. -/
structure PlainName (name : String) : Prop where
  word : ∀ c ∈ name.toList, isSeparator c = false
  notNumber : ∃ c ∈ name.toList, c.isDigit = false

theorem PlainName.toList_ne_nil {name : String} (plain : PlainName name) : name.toList ≠ [] := by
  obtain ⟨c, member, -⟩ := plain.notNumber
  exact List.ne_nil_of_mem member

/-- The text ends, or goes on with a separator. -/
def EndsWord (rest : List Char) : Prop := ∀ c ∈ rest.head?, isSeparator c = true

theorem endsWord_cons {c : Char} {rest : List Char} (separator : isSeparator c = true) :
    EndsWord (c :: rest) := by
  simpa [EndsWord] using separator

theorem isSeparator_of_isDigit {c : Char} (digit : c.isDigit = true) : isSeparator c = false := by
  simp only [isSeparator, Bool.or_eq_false_iff, beq_eq_false_iff_ne]
  refine ⟨⟨⟨⟨?_, ?_⟩, ?_⟩, ?_⟩, ?_⟩ <;> rintro rfl <;> cases digit

/-- A word ends where the first separator stands. -/
theorem word_append_inj {word word' rest rest' : List Char}
    (inside : ∀ c ∈ word, isSeparator c = false) (inside' : ∀ c ∈ word', isSeparator c = false)
    (ends : EndsWord rest) (ends' : EndsWord rest') (same : word ++ rest = word' ++ rest') :
    word = word' ∧ rest = rest' := by
  induction word generalizing word' with
  | nil =>
    cases word' with
    | nil => exact ⟨rfl, same⟩
    | cons c word' =>
      subst same
      have separator := ends c rfl
      rw [inside' c List.mem_cons_self] at separator
      cases separator
  | cons c word ih =>
    have ⟨first, others⟩ := List.forall_mem_cons.1 inside
    cases word' with
    | nil =>
      subst same
      have separator := ends' c rfl
      rw [first] at separator
      cases separator
    | cons c' word' =>
      have ⟨_, others'⟩ := List.forall_mem_cons.1 inside'
      simp only [List.cons_append, List.cons.injEq] at same
      obtain ⟨words, rests⟩ := ih others others' same.2
      exact ⟨by rw [same.1, words], rests⟩

theorem isDigit_of_mem_toString {value : Nat} {c : Char} (member : c ∈ (toString value).toList) :
    c.isDigit = true := by
  rw [Nat.toString_eq_ofList_toDigits, String.toList_ofList] at member
  exact Nat.isDigit_of_mem_toDigits (by decide) (by decide) member

theorem toString_ne_empty (value : Nat) : (toString value).toList ≠ [] := by
  rw [Nat.toString_eq_ofList_toDigits, String.toList_ofList]
  exact Nat.toDigits_ne_nil

theorem toString_toNat_inj {left right : UInt64}
    (same : (toString left.toNat).toList = (toString right.toNat).toList) : left = right := by
  simp only [Nat.toString_eq_ofList_toDigits, String.toList_ofList] at same
  apply UInt64.toNat_inj.1
  rw [← Nat.ofDigitChars_ten_toDigits (n := left.toNat), same, Nat.ofDigitChars_ten_toDigits]

namespace Expr

mutual

/-- The expression with sums in place of the products of one operand. -/
def normal : Expr → Expr
  | .num value => .num value
  | .var name => .var name
  | .add operands => .add (normalAll operands)
  | .mul [operand] => .add [normal operand]
  | .mul operands => .mul (normalAll operands)

/-- The operands with sums in place of the products of one operand. -/
def normalAll : List Expr → List Expr
  | [] => []
  | operand :: rest => normal operand :: normalAll rest

end

mutual

/-- Operators have operands, and names are plain. -/
def Legible : Expr → Prop
  | .num _ => True
  | .var name => PlainName name
  | .add operands => operands ≠ [] ∧ LegibleAll operands
  | .mul operands => operands ≠ [] ∧ LegibleAll operands

/-- All operands are legible. -/
def LegibleAll : List Expr → Prop
  | [] => True
  | operand :: rest => Legible operand ∧ LegibleAll rest

end

variable {tree other operand : Expr} {operands others : List Expr} {separator separator' : String}
  {symbol symbol' : Char} {rest rest' : List Char}

theorem eval_add_singleton (lookup : String → UInt64) (operand : Expr) :
    (add [operand]).eval lookup = operand.eval lookup := by
  have small := (operand.eval lookup).toNat_lt_size
  apply UInt64.toNat_inj.1
  rw [eval, evalSum, evalSum, Saturating.toNat_add, UInt64.toNat_zero]
  simp only [Saturating.greatest]
  omega

theorem eval_mul_singleton (lookup : String → UInt64) (operand : Expr) :
    (mul [operand]).eval lookup = operand.eval lookup := by
  have small := (operand.eval lookup).toNat_lt_size
  apply UInt64.toNat_inj.1
  rw [eval, evalProduct, evalProduct, Saturating.toNat_mul, UInt64.toNat_one]
  simp only [Saturating.greatest]
  omega

theorem normal_mul (more : operands.length ≠ 1) :
    (mul operands).normal = mul (normalAll operands) := by
  rw [normal]
  rintro operand rfl
  exact more rfl

mutual

theorem eval_normal (lookup : String → UInt64) : (tree : Expr) →
    tree.normal.eval lookup = tree.eval lookup
  | .num value => by rw [normal]
  | .var name => by rw [normal]
  | .add operands => by rw [normal, eval, eval, evalSum_normalAll lookup operands]
  | .mul [] => rfl
  | .mul [operand] => by
    rw [normal, eval_add_singleton, eval_mul_singleton, eval_normal lookup operand]
  | .mul (first :: second :: more) => by
    rw [normal_mul (by simp), eval, eval, evalProduct_normalAll lookup (first :: second :: more)]

theorem evalSum_normalAll (lookup : String → UInt64) : (operands : List Expr) →
    evalSum lookup (normalAll operands) = evalSum lookup operands
  | [] => by rw [normalAll]
  | operand :: rest => by
    rw [normalAll, evalSum, evalSum, eval_normal lookup operand, evalSum_normalAll lookup rest]

theorem evalProduct_normalAll (lookup : String → UInt64) : (operands : List Expr) →
    evalProduct lookup (normalAll operands) = evalProduct lookup operands
  | [] => by rw [normalAll]
  | operand :: rest => by
    rw [normalAll, evalProduct, evalProduct, eval_normal lookup operand,
      evalProduct_normalAll lookup rest]

end

mutual

/-- Without flaws, and with plain names, an expression is legible. -/
theorem legible_of_flaw?_eq_none : (tree : Expr) → tree.flaw? = none →
    (∀ name ∈ tree.names, PlainName name) → tree.Legible
  | .num value, _, _ => by
    rw [Legible]
    trivial
  | .var name, _, plain => by
    rw [Legible]
    exact plain name (List.mem_singleton_self name)
  | .add [], flaw, _ => by cases flaw
  | .mul [], flaw, _ => by cases flaw
  | .add (operand :: rest), flaw, plain => by
    rw [Legible]
    exact ⟨List.cons_ne_nil _ _, legibleAll_of_flawOfAll?_eq_none (operand :: rest) flaw plain⟩
  | .mul (operand :: rest), flaw, plain => by
    rw [Legible]
    exact ⟨List.cons_ne_nil _ _, legibleAll_of_flawOfAll?_eq_none (operand :: rest) flaw plain⟩

theorem legibleAll_of_flawOfAll?_eq_none : (operands : List Expr) → flawOfAll? operands = none →
    (∀ name ∈ namesOfAll operands, PlainName name) → LegibleAll operands
  | [], _, _ => by
    rw [LegibleAll]
    trivial
  | operand :: rest, flaw, plain => by
    rw [flawOfAll?] at flaw
    simp only [Option.orElse_eq_orElse, Option.orElse_eq_or, Option.or_eq_none_iff] at flaw
    rw [namesOfAll, List.forall_mem_append] at plain
    rw [LegibleAll]
    exact ⟨legible_of_flaw?_eq_none operand flaw.1 plain.1,
      legibleAll_of_flawOfAll?_eq_none rest flaw.2 plain.2⟩

end

/-- Whether the expression is a number or a variable. -/
def isWord : Expr → Bool
  | .num _ | .var _ => true
  | .add _ | .mul _ => false

theorem word_of_isWord (isWord : tree.isWord = true) (legible : tree.Legible) :
    ∀ c ∈ tree.text.toList, isSeparator c = false := by
  cases tree with
  | num value =>
    intro c member
    rw [text] at member
    exact isSeparator_of_isDigit (isDigit_of_mem_toString member)
  | var name =>
    rw [text]
    rw [Legible] at legible
    exact legible.word
  | add => cases isWord
  | mul => cases isWord

theorem text_ne_nil_of_isWord (isWord : tree.isWord = true) (legible : tree.Legible) :
    tree.text.toList ≠ [] := by
  cases tree with
  | num value =>
    rw [text]
    exact toString_ne_empty _
  | var name =>
    rw [text]
    rw [Legible] at legible
    exact legible.toList_ne_nil
  | add => cases isWord
  | mul => cases isWord

/-- Words that read the same are the same number or the same name. -/
theorem eq_of_isWord (isWord : tree.isWord = true) (isWord' : other.isWord = true)
    (legible : tree.Legible) (legible' : other.Legible)
    (same : tree.text.toList = other.text.toList) : tree = other := by
  have number {value : UInt64} {name : String} (plain : PlainName name) :
      (toString value.toNat).toList ≠ name.toList := by
    intro same
    obtain ⟨c, member, notDigit⟩ := plain.notNumber
    rw [← same] at member
    rw [isDigit_of_mem_toString member] at notDigit
    cases notDigit
  cases tree with
  | num value =>
    cases other with
    | num value' =>
      rw [text, text] at same
      rw [toString_toNat_inj same]
    | var name =>
      rw [Legible] at legible'
      rw [text, text] at same
      exact absurd same (number legible')
    | add => cases isWord'
    | mul => cases isWord'
  | var name =>
    cases other with
    | num value =>
      rw [Legible] at legible
      rw [text, text] at same
      exact absurd same.symm (number legible)
    | var name' =>
      rw [text, text] at same
      rw [String.toList_inj.1 same]
    | add => cases isWord'
    | mul => cases isWord'
  | add => cases isWord
  | mul => cases isWord

theorem text_of_not_isWord (operator : tree.isWord = false) :
    ∃ word, tree.text.toList = '(' :: word := by
  cases tree with
  | num => cases operator
  | var => cases operator
  | add operands => exact ⟨_, by simp [text]; rfl⟩
  | mul operands => exact ⟨_, by simp [text]; rfl⟩

/-- A text that starts with a word is not one in parentheses. -/
theorem isWord_eq_of_text (legible : tree.Legible) (legible' : other.Legible)
    (same : tree.text.toList ++ rest = other.text.toList ++ rest') :
    tree.isWord = other.isWord := by
  have differ {word group : Expr} {rest rest' : List Char} (isWord : word.isWord = true)
      (operator : group.isWord = false) (legible : word.Legible) :
      word.text.toList ++ rest ≠ group.text.toList ++ rest' := by
    intro same
    obtain ⟨inner, opened⟩ := text_of_not_isWord operator
    obtain ⟨c, others, word_eq⟩ := List.exists_cons_of_ne_nil (text_ne_nil_of_isWord isWord legible)
    have notSeparator := word_of_isWord isWord legible c (word_eq ▸ List.mem_cons_self)
    rw [word_eq, opened, List.cons_append, List.cons_append, List.cons.injEq] at same
    rw [same.1] at notSeparator
    cases notSeparator
  cases left : tree.isWord <;> cases right : other.isWord
  · rfl
  · exact absurd same.symm (differ right left legible')
  · exact absurd same (differ left right legible)
  · rfl

/-- The case of two words. -/
theorem normal_eq_of_isWord (isWord : tree.isWord = true) (legible : tree.Legible)
    (legible' : other.Legible) (ends : EndsWord rest) (ends' : EndsWord rest')
    (same : tree.text.toList ++ rest = other.text.toList ++ rest') :
    tree.normal = other.normal ∧ rest = rest' := by
  have isWord' : other.isWord = true := by rw [← isWord_eq_of_text legible legible' same, isWord]
  have ⟨texts, rests⟩ := word_append_inj (word_of_isWord isWord legible)
    (word_of_isWord isWord' legible') ends ends' same
  exact ⟨by rw [eq_of_isWord isWord isWord' legible legible' texts], rests⟩

/-- An operator with the given symbol. -/
def operator (symbol : Char) (operands : List Expr) : Expr :=
  if symbol = '+' then .add operands else .mul operands

/-- How operators are written, and with which symbol. -/
structure Written (tree : Expr) (symbol : Char) (separator : String) (operands : List Expr) :
    Prop where
  spaced : separator.toList = [' ', symbol, ' ']
  text_eq : tree.text.toList = '(' :: ((textOfAll separator operands).toList ++ [')'])
  normal_eq : tree.normal =
    operator (if (normalAll operands).length = 1 then '+' else symbol) (normalAll operands)

theorem written_add (operands : List Expr) : (add operands).Written '+' " + " operands where
  spaced := rfl
  text_eq := by simp [text]
  normal_eq := by simp [normal, operator]

theorem written_mul (operands : List Expr) : (mul operands).Written '*' " * " operands where
  spaced := rfl
  text_eq := by simp [text]
  normal_eq := by
    match operands with
    | [] => simp [normal, normalAll, operator]
    | [operand] => simp [normal, normalAll, operator]
    | first :: second :: more => simp [normal, normalAll, operator]

theorem exists_written (operator : tree.isWord = false) (legible : tree.Legible) :
    ∃ symbol separator operands, tree.Written symbol separator operands ∧
      LegibleAll operands ∧ operands ≠ [] := by
  cases tree with
  | num => cases operator
  | var => cases operator
  | add operands =>
    rw [Legible] at legible
    exact ⟨_, _, operands, written_add operands, legible.2, legible.1⟩
  | mul operands =>
    rw [Legible] at legible
    exact ⟨_, _, operands, written_mul operands, legible.2, legible.1⟩

/-- Operands in writing are the same, and where there are two or more the symbol is. -/
def SameOperands (operands others : List Expr) (symbol symbol' : Char) : Prop :=
  normalAll operands = normalAll others ∧ ((normalAll operands).length = 1 ∨ symbol = symbol')

/-- The case of an operator, given the case of its operands. -/
theorem normal_eq_of_written (written : tree.Written symbol separator operands)
    (operator : tree.isWord = false) (legible : tree.Legible) (legible' : other.Legible)
    (ih : ∀ {others : List Expr} {separator' : String} {symbol' : Char}, LegibleAll others →
      others ≠ [] → separator'.toList = [' ', symbol', ' '] →
      (textOfAll separator operands).toList ++ ')' :: rest =
        (textOfAll separator' others).toList ++ ')' :: rest' →
      SameOperands operands others symbol symbol' ∧ rest = rest')
    (same : tree.text.toList ++ rest = other.text.toList ++ rest') :
    tree.normal = other.normal ∧ rest = rest' := by
  have operator' : other.isWord = false := by
    rw [← isWord_eq_of_text legible legible' same, operator]
  obtain ⟨symbol', separator', others, written', legible', nonempty'⟩ :=
    exists_written operator' legible'
  rw [written.text_eq, written'.text_eq] at same
  simp only [List.cons_append, List.append_assoc, List.nil_append, List.cons.injEq,
    true_and] at same
  obtain ⟨⟨normals, one⟩, rests⟩ := ih legible' nonempty' written'.spaced same
  refine ⟨?_, rests⟩
  rw [written.normal_eq, written'.normal_eq, ← normals]
  rcases one with one | rfl
  · rw [if_pos one, if_pos one]
  · rfl

theorem textOfAll_cons {more : List Expr} (nonempty : more ≠ []) :
    (textOfAll separator (operand :: more)).toList =
      operand.text.toList ++ (separator.toList ++ (textOfAll separator more).toList) := by
  cases more with
  | nil => exact absurd rfl nonempty
  | cons => simp [textOfAll]

mutual

/-- The text of an expression tells where it ends and, but for products of one operand, what the
expression is. -/
theorem normal_eq_of_text {other : Expr} {rest rest' : List Char} (legible' : other.Legible)
    (ends : EndsWord rest) (ends' : EndsWord rest') : (tree : Expr) → tree.Legible →
    tree.text.toList ++ rest = other.text.toList ++ rest' →
    tree.normal = other.normal ∧ rest = rest'
  | .num value, legible, same => normal_eq_of_isWord rfl legible legible' ends ends' same
  | .var name, legible, same => normal_eq_of_isWord rfl legible legible' ends ends' same
  | .add operands, legible, same => by
    have written := written_add operands
    refine normal_eq_of_written written rfl legible legible' ?_ same
    rw [Legible] at legible
    intro others separator' symbol' all' nonempty' spaced' same
    exact normalAll_eq_of_textOfAll written.spaced spaced' all' nonempty' operands legible.2
      legible.1 same
  | .mul operands, legible, same => by
    have written := written_mul operands
    refine normal_eq_of_written written rfl legible legible' ?_ same
    rw [Legible] at legible
    intro others separator' symbol' all' nonempty' spaced' same
    exact normalAll_eq_of_textOfAll written.spaced spaced' all' nonempty' operands legible.2
      legible.1 same

/-- The same for operands up to the end of their parentheses. Two or more of them also tell which
operator stands between them. -/
theorem normalAll_eq_of_textOfAll {separator separator' : String} {symbol symbol' : Char}
    {others : List Expr} {rest rest' : List Char} (spaced : separator.toList = [' ', symbol, ' '])
    (spaced' : separator'.toList = [' ', symbol', ' ']) (legible' : LegibleAll others)
    (nonempty' : others ≠ []) : (operands : List Expr) → LegibleAll operands → operands ≠ [] →
    (textOfAll separator operands).toList ++ ')' :: rest =
      (textOfAll separator' others).toList ++ ')' :: rest' →
    SameOperands operands others symbol symbol' ∧ rest = rest'
  | [], _, nonempty, _ => absurd rfl nonempty
  | operand :: more, legible, _, same => by
    obtain ⟨other, more', rfl⟩ := List.exists_cons_of_ne_nil nonempty'
    rw [LegibleAll] at legible legible'
    have first {tail tail' : List Char} (ends : EndsWord tail) (ends' : EndsWord tail')
        (same : operand.text.toList ++ tail = other.text.toList ++ tail') :
        operand.normal = other.normal ∧ tail = tail' :=
      normal_eq_of_text legible'.1 ends ends' operand legible.1 same
    by_cases last : more = []
    · by_cases last' : more' = []
      · subst last last'
        obtain ⟨normals, rests⟩ := first (endsWord_cons rfl) (endsWord_cons rfl) same
        rw [List.cons.injEq] at rests
        exact ⟨⟨by simp only [normalAll, normals], .inl rfl⟩, rests.2⟩
      · subst last
        rw [textOfAll_cons last', spaced'] at same
        simp only [List.append_assoc, List.cons_append] at same
        obtain ⟨-, rests⟩ := first (endsWord_cons rfl) (endsWord_cons rfl) same
        cases rests
    · by_cases last' : more' = []
      · subst last'
        rw [textOfAll_cons last, spaced] at same
        simp only [List.append_assoc, List.cons_append] at same
        obtain ⟨-, rests⟩ := first (endsWord_cons rfl) (endsWord_cons rfl) same
        cases rests
      · rw [textOfAll_cons last, textOfAll_cons last', spaced, spaced'] at same
        simp only [List.append_assoc, List.cons_append, List.nil_append] at same
        obtain ⟨normals, others⟩ := first (endsWord_cons rfl) (endsWord_cons rfl) same
        simp only [List.cons.injEq, true_and] at others
        obtain ⟨⟨normals', -⟩, rests⟩ := normalAll_eq_of_textOfAll spaced spaced' legible'.2 last'
          more legible.2 last others.2
        exact ⟨⟨by simp only [normalAll, normals, normals'], .inr others.1⟩, rests⟩

end

end Expr

end SearchSpace
