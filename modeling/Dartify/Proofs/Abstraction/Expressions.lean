import Dartify.Abstraction.Expressions
import Dartify.Proofs.Abstraction.Reading

/-! What expressions are read as. -/
namespace Dartify.Abstraction

open Syntax Sketch Filling

/-- A reader is right about every well-formed tree. -/
def Sound (read : Concrete → Reading Sketch) : Prop :=
  ∀ {c s}, c.WellFormed → read c = .ok s → ∀ k, Part k c [s]

/-! ## Names -/

theorem identifier_part {c : Concrete} {s : Sketch} {j k : Construct} (formed : c.WellFormed)
    (known : c.construct? = some j)
    (name : j = .identifier ∨ j = .undefined ∨ j = .propertyName ∨ j = .typeIdentifier)
    (done : identifier c = .ok s) : Part k c [s] := by
  refine part_atom formed known ?_ done ?_
  · rcases name with rfl | rfl | rfl | rfl <;> rfl
  · intro t same
    rw [same]
    rcases name with rfl | rfl | rfl | rfl <;> rfl

theorem binding_sound : Sound binding := by
  intro c s formed done k
  unfold binding at done
  split at done
  · rename_i name
    exact identifier_part formed (Concrete.is_iff.mp name) (.inl rfl) done
  · split at done
    · exact part_unsupported done
    · exact part_foreign done

theorem memberName_sound : Sound memberName := by
  intro c s formed done k
  unfold memberName at done
  split at done
  · rename_i name
    rcases (Bool.or_eq_true _ _).mp name with name | name
    · exact identifier_part formed (Concrete.is_iff.mp name) (.inl rfl) done
    · exact identifier_part formed (Concrete.is_iff.mp name) (.inr (.inr (.inl rfl))) done
  · exact part_foreign done

/-! ## Expressions -/

/-- What is said of the reading of an expression. -/
structure Value (c : Concrete) (s : Sketch) : Prop where
  part : ∀ k, Part k c [s]
  leveled : ∀ op, s.kind.leveled? = some op → c.binaryOp? = some op

/-- A reader is right about every well-formed expression. -/
def SoundValue (read : Concrete → Reading Sketch) : Prop :=
  ∀ {c s}, c.WellFormed → read c = .ok s → Value c s

variable {c : Concrete} {s : Sketch} {ss : List Sketch} {k : Construct}
  {inner : Concrete → Reading Sketch}

theorem Value.unsupported {name : String} (done : unsupported c name = .ok s) : Value c s where
  part _ := part_unsupported done
  leveled := by
    obtain ⟨site, -, rfl⟩ := leaf_ok done
    intro op level
    cases level

theorem Value.foreign (done : foreign c = .ok s) : Value c s := by
  obtain ⟨_, -, done⟩ := bind_ok done
  exact .unsupported done

theorem Value.atom (formed : c.WellFormed) (known : c.construct? = some k) (atom : k.isAtom = true)
    {kind : NodeKind} (done : leaf c kind = .ok s)
    (means : ∀ t, c.text = t.text → kind = Atom.kind ⟨k, t⟩) : Value c s where
  part := fun _ => part_atom formed known atom done means
  leveled := by
    obtain ⟨t, rfl, -⟩ := formed.atom known atom
    obtain ⟨site, -, rfl⟩ := leaf_ok done
    have word := isWord_atom ⟨k, t⟩
    rw [← means t (text_atom t)] at word
    intro op level
    have level : kind.leveled? = some op := level
    cases kind <;> first | cases level | cases word

/-- An expression that joins the sketches of its parts. -/
theorem Value.joined (known : c.construct? = some k) (free : k.isAtom = false)
    (clause : k.isClause = false) (parts : Parts k c.parts ss) (joins : s.Joins c.tokens ss) :
    Value c s where
  part := by
    intro j
    have other : k ≠ .decorator ∧ k ≠ .initializer := by
      constructor <;> (rintro rfl; cases clause)
    exact Renders.joined (parts.gathered known free other.1 (.inl other.2)) joins
  leveled := by
    rw [joins.leveled?_eq_none]
    exact nofun

/-! Operators. -/

theorem fits_binary {left right : Sketch} {op : BinaryOp}
    (free : left.kind.isConstructor = false ∧ right.kind.isConstructor = false)
    (grouped : op.level?.isSome = true →
      (∀ inner, left.kind.leveled? = some inner → op.admitsLeft inner = true) ∧
      (∀ inner, right.kind.leveled? = some inner → op.admitsRight inner = true)) :
    Fits (.binary 0 op 1) [left.kind, right.kind] where
  numbered := rfl
  named := nofun
  owned := by
    intro i part at_ constructor
    have mem := List.mem_of_getElem? at_
    simp only [List.mem_cons, List.not_mem_nil, or_false] at mem
    rcases mem with rfl | rfl <;> simp_all
  grouped := by
    intro l o r same level
    cases same
    obtain ⟨fitsLeft, fitsRight⟩ := grouped level
    constructor
    · intro part inner at_
      cases at_
      exact fitsLeft inner
    · intro part inner at_
      cases at_
      exact fitsRight inner
  spelled := nofun

theorem renders_binary {ts : List Token} {least most : List Atom} {left right : Sketch}
    {more : List Sketch} (op : BinaryOp) {site : Site} (opens : site.Opens ts)
    (h : Renders ts least most (left :: right :: more))
    (grouped : op.level?.isSome = true →
      (∀ inner, left.kind.leveled? = some inner → op.admitsLeft inner = true) ∧
      (∀ inner, right.kind.leveled? = some inner → op.admitsRight inner = true)) :
    Renders ts least most (.node site (.binary 0 op 1) [left, right] :: more) := by
  have fits := fits_binary ⟨h.free left (by simp), h.free right (by simp)⟩ grouped
  refine ⟨Yields.headed h.toYields opens fits rfl, ?_⟩
  intro s mem
  rcases List.mem_cons.mp mem with rfl | mem
  · rfl
  · exact h.free s (by simp [mem])

theorem infixed_value {left right : Sketch} (op : BinaryOp) (known : c.construct? = some k)
    (free : k.isAtom = false) (clause : k.isClause = false) (parts : Parts k c.parts [left, right])
    (grouped : op.level?.isSome = true →
      (∀ inner, left.kind.leveled? = some inner → op.admitsLeft inner = true) ∧
      (∀ inner, right.kind.leveled? = some inner → op.admitsRight inner = true))
    (shape : op.level?.isSome = true → c.binaryOp? = some op)
    (done : infixed c left op right = .ok s) : Value c s := by
  obtain ⟨site, opens, rfl⟩ := sketch_ok done
  constructor
  · intro j
    have other : k ≠ .decorator ∧ k ≠ .initializer := by
      constructor <;> (rintro rfl; cases clause)
    exact renders_binary op opens (parts.gathered known free other.1 (.inl other.2)) grouped
  · intro inner level
    have level : (if op.level?.isSome then some op else none) = some inner := level
    split at level
    · rename_i leveled
      rw [← level]
      exact shape leveled
    · cases level

section

variable {left right : Concrete} {token : Token} {op : BinaryOp}
  (shape : c.parts = [left, .leaf token, right])
  (spelled : BinaryOp.ofSpelling? token.text = some op)

include shape spelled

theorem binaryOp?_binary (known : c.construct? = some .binary) : c.binaryOp? = some op := by
  cases c with
  | leaf t => cases known
  | node j parts =>
    cases known
    cases shape
    exact spelled

/-- The operands of a binary expression suit the operator between them. -/
theorem grouped_binary (formed : c.WellFormed) (known : c.construct? = some .binary)
    {l r : Sketch} (valueLeft : Value left l) (valueRight : Value right r) :
    (∀ inner, l.kind.leveled? = some inner → op.admitsLeft inner = true) ∧
      (∀ inner, r.kind.leveled? = some inner → op.admitsRight inner = true) := by
  have groups := formed.groups known
  rw [shape] at groups
  simp only [Concrete.groups, spelled, Bool.and_eq_true] at groups
  obtain ⟨⟨-, suitsLeft⟩, suitsRight⟩ := groups
  constructor
  · intro inner level
    rw [valueLeft.leveled inner level] at suitsLeft
    exact suitsLeft
  · intro inner level
    rw [valueRight.leveled inner level] at suitsRight
    exact suitsRight

/-- An augmented assignment has an operator without a level. -/
theorem level?_augmentedAssignment (formed : c.WellFormed)
    (known : c.construct? = some .augmentedAssignment) : op.level? = none := by
  have groups := formed.groups known
  rw [shape] at groups
  simpa only [Concrete.groups, spelled, Option.bind_some, Option.isNone_iff_eq_none] using groups

end

theorem binary_value (sound : SoundValue inner) (formed : c.WellFormed)
    (known : c.construct? = some .binary ∨ c.construct? = some .augmentedAssignment)
    (done : binary inner c = .ok s) : Value c s := by
  unfold binary at done
  split at done
  · rename_i left token right shape
    have formed' : ∀ p ∈ [left, .leaf token, right], p.WellFormed := by
      rw [← shape]
      exact fun p mem => formed.of_mem_parts mem
    split at done
    · rename_i op spelled
      obtain ⟨l, readLeft, done⟩ := bind_ok done
      obtain ⟨r, readRight, done⟩ := bind_ok done
      have valueLeft := sound (formed' left (by simp)) readLeft
      have valueRight := sound (formed' right (by simp)) readRight
      have parts : ∀ k, Parts k c.parts [l, r] := by
        intro k
        rw [shape]
        exact .cons (valueLeft.part k) (.cons (.token token) (.one (valueRight.part k)))
      rcases known with known | known
      · have grouped := grouped_binary shape spelled formed known valueLeft valueRight
        have level := binaryOp?_binary shape spelled known
        exact infixed_value op known rfl rfl (parts _) (fun _ => grouped) (fun _ => level) done
      · have level := level?_augmentedAssignment shape spelled formed known
        exact infixed_value op known rfl rfl (parts _) (by simp [level]) (by simp [level]) done
    · exact .unsupported done
  · cases done

/-- Every prefix of a comma list stands where the list stands. -/
theorem commas_renders {least most : List Atom} {left : Sketch} {more : List Sketch}
    (h : Renders c.tokens least most (left :: more)) (done : commas c left more = .ok s) :
    Renders c.tokens least most [s] := by
  induction more generalizing left with
  | nil =>
    cases done
    exact h
  | cons right more ih =>
    obtain ⟨site, found, done⟩ := bind_ok done
    exact ih (renders_binary .comma ((site?_opens (lift_ok found)).upTo _) h nofun) done

theorem commas_leveled {site : Concrete} {left : Sketch} {more : List Sketch}
    (bare : left.kind.leveled? = none) (done : commas site left more = .ok s) :
    s.kind.leveled? = none := by
  induction more generalizing left with
  | nil =>
    cases done
    exact bare
  | cons right more ih =>
    obtain ⟨_, -, done⟩ := bind_ok done
    exact ih rfl done

theorem sequence_value (sound : SoundValue inner) (formed : c.WellFormed)
    (known : c.construct? = some .sequence) (done : sequence inner c = .ok s) : Value c s := by
  obtain ⟨first, _, shape, -, filled⟩ := Slot.exists_of_fill_one (formed.fill known rfl rfl)
  obtain ⟨second, others, rfl, -, -⟩ := Slot.exists_of_fill_one filled
  obtain ⟨values, read, done⟩ := bind_ok done
  have read := mapM_ok read
  have parts : Parts .sequence c.nodes values := .of_forall₂ (forall₂_part
    (fun d mem s read => (sound (formed.of_mem_nodes mem) read).part _) read)
  rw [shape] at read
  cases read with
  | cons _ rest =>
    constructor
    · exact fun j => commas_renders (parts.whole known rfl nofun (.inl nofun)) done
    · cases rest with
      | cons _ _ =>
        obtain ⟨_, -, done⟩ := bind_ok done
        rw [commas_leveled rfl done]
        exact nofun

theorem prefixed_value {op : String} {operand : Sketch} (known : c.construct? = some k)
    (free : k.isAtom = false) (clause : k.isClause = false) (parts : Parts k c.parts [operand])
    (done : prefixed c op operand = .ok s) : Value c s := by
  unfold prefixed at done
  split at done
  · exact .joined known free clause parts (sketch_joins done ⟨rfl, rfl, rfl⟩)
  · exact .joined known free clause parts (sketch_joins done ⟨rfl, rfl, rfl⟩)
  · exact .joined known free clause parts (sketch_joins done ⟨rfl, rfl, rfl⟩)
  · split at done
    · exact .joined known free clause parts (sketch_joins done ⟨rfl, rfl, rfl⟩)
    · exact .unsupported done

theorem postfixed_value {op : String} {operand : Sketch} (known : c.construct? = some k)
    (free : k.isAtom = false) (clause : k.isClause = false) (parts : Parts k c.parts [operand])
    (done : postfixed c operand op = .ok s) : Value c s := by
  unfold postfixed at done
  split at done
  · exact .joined known free clause parts (sketch_joins done ⟨rfl, rfl, rfl⟩)
  · exact .unsupported done

/-! Calls. -/

theorem arguments_parts (sound : SoundValue inner) (formed : c.WellFormed)
    (done : arguments inner c = .ok ss) : Parts k (c.part? .arguments).toList ss := by
  unfold arguments at done
  cases found : c.part? .arguments with
  | none =>
    rw [found] at done
    cases done
    exact .nil
  | some list =>
    rw [found] at done
    obtain ⟨mem, known⟩ := Concrete.part?_spec found
    have formed := formed.of_mem_nodes mem
    have inside := forall₂_part (k := .arguments)
      (fun d mem s read => (sound (formed.of_mem_nodes mem) read).part _) (mapM_ok done)
    exact .one ((Parts.of_forall₂ inside).whole known rfl nofun (.inl nofun))

/-- A callee, type arguments and arguments. -/
theorem callee_parts (sound : SoundValue inner) (formed : c.WellFormed) {callee : Concrete}
    {types args : Option Concrete} (shape : c.nodes = callee :: (types.toList ++ args.toList))
    (main : callee.isMain = true) (typing : ∀ d, types = some d → d.is .typeArguments = true)
    (known : ∀ d, args = some d → d.is .arguments = true) {e : Sketch}
    (read : inner callee = .ok e) (readArgs : arguments inner c = .ok ss) :
    Parts k c.nodes (e :: ss) := by
  have found : c.part? .arguments = args := by
    rw [Concrete.part?_eq, shape, List.find?_cons, Concrete.is_of_isMain main rfl,
      List.find?_append, Concrete.find?_toList_of_is typing, Concrete.find?_toList_of_is known]
    simp
  have first := (sound (formed.of_mem_nodes (by simp [shape])) read).part k
  have rest := arguments_parts (k := k) sound formed readArgs
  rw [found] at rest
  rw [shape]
  exact .cons first ((Parts.typing typing rfl).append rest)

theorem collects_call (make : NodeId → List NodeId → NodeKind) (e : Sketch) (ss : List Sketch)
    (children : ∀ f args, (make f args).children = f :: args)
    (plain : ∀ f args, (make f args).isPlain = true) :
    Collects (do return make (← one e) (← many ss)) (e :: ss) where
  parts := rfl
  numbered := by
    simp only [run_bind, run_one, run_many, run_pure, children]
    simp [List.range_eq_range', List.range'_succ]
  plain := plain _ _

theorem call_value (sound : SoundValue inner) (formed : c.WellFormed)
    (known : c.construct? = some .call) (done : call inner c = .ok s) : Value c s := by
  obtain ⟨callee, others, shape, main, filled⟩ :=
    Slot.exists_of_fill_one (formed.fill known rfl rfl)
  obtain ⟨types, _, rfl, typing, filled⟩ := Slot.exists_of_fill_maybe filled
  obtain ⟨list, _, rfl, listed, filled⟩ := Slot.exists_of_fill_one filled
  cases Slot.eq_nil_of_fill filled
  obtain ⟨_, head, done⟩ := bind_ok done
  rw [shape] at head
  cases lift_ok head
  obtain ⟨e, read, done⟩ := bind_ok done
  obtain ⟨args, readArgs, done⟩ := bind_ok done
  have given : ∀ d, some list = some d → d.is .arguments = true :=
    fun d same => Option.some.inj same ▸ listed
  have parts := callee_parts (k := .call) sound formed shape main typing given read readArgs
  exact .joined known rfl rfl parts.all
    (sketch_joins done (collects_call .call e args (fun _ _ => rfl) fun _ _ => rfl))

theorem construction_value (sound : SoundValue inner) (formed : c.WellFormed)
    (known : c.construct? = some .newExpression) (done : construction inner c = .ok s) :
    Value c s := by
  obtain ⟨callee, others, shape, main, filled⟩ :=
    Slot.exists_of_fill_one (formed.fill known rfl rfl)
  obtain ⟨types, _, rfl, typing, filled⟩ := Slot.exists_of_fill_maybe filled
  obtain ⟨list, _, rfl, listed, filled⟩ := Slot.exists_of_fill_maybe filled
  cases Slot.eq_nil_of_fill filled
  rw [List.append_nil] at shape
  obtain ⟨_, head, done⟩ := bind_ok done
  rw [shape] at head
  cases lift_ok head
  obtain ⟨e, read, done⟩ := bind_ok done
  obtain ⟨args, readArgs, done⟩ := bind_ok done
  have parts := callee_parts (k := .newExpression) sound formed shape main typing listed read
    readArgs
  exact .joined known rfl rfl parts.all
    (sketch_joins done (collects_call .newExpression e args (fun _ _ => rfl) fun _ _ => rfl))

/-! Other expressions. -/

/-- A type behind an expression in brackets need not be read. -/
theorem skips_bracketed {type : Option Concrete}
    (typing : ∀ d, type = some d → (d.is .ascription || d.is .typeArguments) = true) :
    ∀ d ∈ type.toList, Concrete.either Concrete.isValueless Concrete.isLeftOut k d = true := by
  intro d mem
  rcases (Bool.or_eq_true _ _).mp (typing d (Option.mem_toList.mp mem)) with is | is
  · exact skips_typing (Concrete.is_iff.mp is) rfl
  · exact skips_typing (Concrete.is_iff.mp is) rfl

theorem parenthesized_value (sound : SoundValue inner) (formed : c.WellFormed)
    (known : c.construct? = some .parenthesized) (done : parenthesized inner c = .ok s) :
    Value c s := by
  obtain ⟨inside, others, shape, -, filled⟩ :=
    Slot.exists_of_fill_one (formed.fill known rfl rfl)
  obtain ⟨type, _, rfl, typing, filled⟩ := Slot.exists_of_fill_maybe filled
  cases Slot.eq_nil_of_fill filled
  obtain ⟨_, head, done⟩ := bind_ok done
  rw [shape] at head
  cases lift_ok head
  obtain ⟨e, read, done⟩ := bind_ok done
  have value := sound (formed.of_mem_nodes (by simp [shape])) read
  have parts : Parts .parenthesized c.nodes [e] := by
    rw [shape]
    exact .cons (value.part _) (.append (.skipped (skips_bracketed typing)) .nil)
  exact .joined known rfl rfl parts.all (sketch_joins done ⟨rfl, rfl, rfl⟩)

theorem member_value (sound : SoundValue inner) (formed : c.WellFormed)
    (known : c.construct? = some .member) (done : member inner c = .ok s) : Value c s := by
  unfold member at done
  split at done
  · rename_i object property shape
    obtain ⟨e, read, done⟩ := bind_ok done
    obtain ⟨name, named, done⟩ := bind_ok done
    have value := sound (formed.of_mem_nodes (by simp [shape])) read
    have property := memberName_sound (formed.of_mem_nodes (by simp [shape])) named
    have parts : Parts .member c.nodes [e, name] := by
      rw [shape]
      exact .cons (value.part _) (.one (property _))
    exact .joined known rfl rfl parts.all (sketch_joins done ⟨rfl, rfl, rfl⟩)
  · cases done

theorem subscript_value (sound : SoundValue inner) (formed : c.WellFormed)
    (known : c.construct? = some .subscript) (done : subscript inner c = .ok s) : Value c s := by
  unfold subscript at done
  split at done
  · rename_i object index shape
    obtain ⟨e, read, done⟩ := bind_ok done
    obtain ⟨i, readIndex, done⟩ := bind_ok done
    have value := sound (formed.of_mem_nodes (by simp [shape])) read
    have valueIndex := sound (formed.of_mem_nodes (by simp [shape])) readIndex
    have parts : Parts .subscript c.nodes [e, i] := by
      rw [shape]
      exact .cons (value.part _) (.one (valueIndex.part _))
    exact .joined known rfl rfl parts.all (sketch_joins done ⟨rfl, rfl, rfl⟩)
  · cases done

theorem assignment_value (sound : SoundValue inner) (formed : c.WellFormed)
    (known : c.construct? = some .assignment) (done : assignment inner c = .ok s) :
    Value c s := by
  unfold assignment at done
  split at done
  · rename_i left right shape
    obtain ⟨l, readLeft, done⟩ := bind_ok done
    obtain ⟨r, readRight, done⟩ := bind_ok done
    have valueLeft := sound (formed.of_mem_nodes (by simp [shape])) readLeft
    have valueRight := sound (formed.of_mem_nodes (by simp [shape])) readRight
    have parts : Parts .assignment c.nodes [l, r] := by
      rw [shape]
      exact .cons (valueLeft.part _) (.one (valueRight.part _))
    exact infixed_value .assign known rfl rfl parts.all nofun nofun done
  · cases done

theorem conditional_value (sound : SoundValue inner) (formed : c.WellFormed)
    (known : c.construct? = some .ternary) (done : conditional inner c = .ok s) : Value c s := by
  unfold conditional at done
  split at done
  · rename_i test yes no shape
    obtain ⟨a, readTest, done⟩ := bind_ok done
    obtain ⟨b, readYes, done⟩ := bind_ok done
    obtain ⟨d, readNo, done⟩ := bind_ok done
    have valueTest := sound (formed.of_mem_nodes (by simp [shape])) readTest
    have valueYes := sound (formed.of_mem_nodes (by simp [shape])) readYes
    have valueNo := sound (formed.of_mem_nodes (by simp [shape])) readNo
    have parts : Parts .ternary c.nodes [a, b, d] := by
      rw [shape]
      exact .cons (valueTest.part _) (.cons (valueYes.part _) (.one (valueNo.part _)))
    exact .joined known rfl rfl parts.all (sketch_joins done ⟨rfl, rfl, rfl⟩)
  · cases done

/-- An operand between tokens. -/
theorem operand_parts (front back : List Token) (sound : SoundValue inner) (formed : c.WellFormed)
    {operand : Concrete}
    (shape : c.parts = front.map Concrete.leaf ++ operand :: back.map Concrete.leaf) {e : Sketch}
    (read : inner operand = .ok e) : Parts k c.parts [e] := by
  have tokens : ∀ ts : List Token, Parts k (ts.map Concrete.leaf) [] := by
    intro ts
    induction ts with
    | nil => exact .nil
    | cons t ts ih => exact .cons (.token t) ih
  have value := sound (formed.of_mem_parts (by simp [shape])) read
  rw [shape]
  exact (tokens front).append (.cons (value.part k) (tokens back))

theorem expressionWith_value (sound : SoundValue inner) : SoundValue (expressionWith inner) := by
  intro c s formed done
  obtain ⟨k, known, done⟩ := bind_ok done
  have known := lift_ok known
  split at done
  case h_1 | h_2 | h_3 | h_4 | h_5 | h_6 =>
    exact .atom formed known rfl done fun t same => by rw [same]; rfl
  case h_7 | h_8 | h_9 | h_10 => exact .atom formed known rfl done fun _ _ => rfl
  case h_11 => exact parenthesized_value sound formed known done
  case h_12 => exact member_value sound formed known done
  case h_13 => exact subscript_value sound formed known done
  case h_14 => exact call_value sound formed known done
  case h_15 => exact construction_value sound formed known done
  case h_16 => exact binary_value sound formed (.inl known) done
  case h_17 => exact binary_value sound formed (.inr known) done
  case h_18 => exact assignment_value sound formed known done
  case h_19 => exact sequence_value sound formed known done
  case h_20 | h_21 =>
    split at done
    · rename_i op operand shape
      obtain ⟨e, read, done⟩ := bind_ok done
      exact prefixed_value known rfl rfl (operand_parts [op] [] sound formed shape read) done
    · cases done
  case h_22 =>
    split at done
    · rename_i operand op shape
      obtain ⟨e, read, done⟩ := bind_ok done
      exact postfixed_value known rfl rfl (operand_parts [] [op] sound formed shape read) done
    · cases done
  case h_23 => exact conditional_value sound formed known done
  case h_24 => exact .foreign done

theorem expressionWithin_value (n : Nat) : SoundValue (expressionWithin n) := by
  induction n with
  | zero =>
    intro c s formed done
    cases done
  | succ n ih => exact expressionWith_value ih

theorem expression_value : SoundValue expression := fun formed done =>
  expressionWithin_value _ formed done

theorem expression_sound : Sound expression :=
  fun formed done => (expression_value formed done).part

/-- The value behind a name. -/
theorem initializer_parts (formed : c.WellFormed) (loop : k ≠ .forInStatement) {v : Option Sketch}
    (done : initializer c = .ok v) : Parts k (c.part? .initializer).toList v.toList := by
  have read := mapM_option_ok done
  cases found : c.part? .initializer with
  | none =>
    rw [found] at read
    cases v with
    | none => exact .nil
    | some v => cases read
  | some clause =>
    rw [found] at read
    obtain ⟨mem, known⟩ := Concrete.part?_spec found
    have formed := formed.of_mem_nodes mem
    obtain ⟨e, others, shape, -, filled⟩ := Slot.exists_of_fill_one (formed.fill known rfl rfl)
    cases Slot.eq_nil_of_fill filled
    cases v with
    | none => cases read
    | some v =>
      obtain ⟨_, head, done⟩ := bind_ok (List.forall₂_cons.mp read).1
      rw [shape] at head
      cases lift_ok head
      have parts : Parts .initializer clause.nodes [v] := by
        rw [shape]
        exact .one (expression_sound (formed.of_mem_nodes (by simp [shape])) done _)
      exact .one (parts.whole known rfl nofun (.inr loop))

end Dartify.Abstraction
