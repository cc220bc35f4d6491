import Dartify.Abstraction.Statements
import Dartify.Proofs.Abstraction.Classes
import Dartify.Proofs.Syntax.Spacing
import Dartify.Tree.Reading

/-! What statements and files are read as. Main statement: the tree of a text comes from a sketch
that is right about the concrete tree of the text. -/
namespace Dartify.Abstraction

open Syntax Sketch Filling

variable {c : Concrete} {s : Sketch} {ss : List Sketch} {j k : Construct}
  {statement : Concrete → Reading Sketch}

/-- A condition is read without its brackets. -/
theorem condition_part (formed : c.WellFormed) {d : Concrete} (found : condition c = .ok d)
    (done : expression d = .ok s) : Part k c [s] := by
  unfold condition at found
  split at found
  · rename_i bracketed
    have known := Concrete.is_iff.mp bracketed
    obtain ⟨inside, _, shape, -, filled⟩ :=
      Slot.exists_of_fill_one (formed.fill known rfl rfl)
    obtain ⟨type, _, rfl, typing, filled⟩ := Slot.exists_of_fill_maybe filled
    cases Slot.eq_nil_of_fill filled
    have found := lift_ok found
    rw [shape] at found
    cases found
    have parts : Parts .parenthesized c.nodes ([s] ++ ([] ++ [])) := by
      rw [shape]
      exact .cons (expression_sound (formed.of_mem_nodes (by simp [shape])) done _)
        (.append (.skipped (skips_bracketed typing)) .nil)
    exact parts.whole known rfl nofun (.inl nofun)
  · cases found
    exact expression_sound formed done k

theorem ifStatement_part (sound : Sound statement) (formed : c.WellFormed)
    (known : c.construct? = some .ifStatement) (done : ifStatement statement c = .ok s) :
    Part k c [s] := by
  obtain ⟨test, _, shape, -, filled⟩ := Slot.exists_of_fill_one (formed.fill known rfl rfl)
  obtain ⟨consequence, _, rfl, -, filled⟩ := Slot.exists_of_fill_one filled
  obtain ⟨other, _, rfl, isElse, filled⟩ := Slot.exists_of_fill_maybe filled
  cases Slot.eq_nil_of_fill filled
  rw [List.append_nil] at shape
  unfold ifStatement at done
  rw [shape] at done
  obtain ⟨_, found, done⟩ := bind_ok done
  obtain ⟨a, readTest, done⟩ := bind_ok done
  obtain ⟨b, readConsequence, done⟩ := bind_ok done
  obtain ⟨d, readOther, done⟩ := bind_ok done
  have partTest := condition_part (k := .ifStatement) (formed.of_mem_nodes (by simp [shape]))
    found readTest
  have partConsequence := sound (formed.of_mem_nodes (by simp [shape])) readConsequence
    .ifStatement
  have partOther : Parts .ifStatement other.toList d.toList := by
    have head : other.toList.head? = other := by cases other <;> rfl
    rw [head] at readOther
    refine .of_forall₂ (forall₂_part ?_ (mapM_option_ok readOther))
    intro clause mem s read
    have formed : clause.WellFormed := formed.of_mem_nodes (by simp [shape, mem])
    have known := Concrete.is_iff.mp (isElse clause (Option.mem_toList.mp mem))
    obtain ⟨inside, _, shape, -, filled⟩ := Slot.exists_of_fill_one (formed.fill known rfl rfl)
    cases Slot.eq_nil_of_fill filled
    obtain ⟨_, first, read⟩ := bind_ok read
    rw [shape] at first
    cases lift_ok first
    have parts : Parts .elseClause clause.nodes [s] := by
      rw [shape]
      exact .one (sound (formed.of_mem_nodes (by simp [shape])) read _)
    exact parts.whole known rfl nofun (.inl nofun)
  have parts : Parts .ifStatement c.nodes (a :: b :: d.toList) := by
    rw [shape]
    exact .cons partTest (.cons partConsequence partOther)
  refine Renders.joined (parts.whole known rfl nofun (.inl nofun)) (sketch_joins done ⟨?_, ?_, rfl⟩)
  · cases d <;> rfl
  · cases d <;> rfl

/-! ## Loops -/

theorem clause_sound : Sound clause := by
  intro c s formed done k
  unfold clause at done
  split at done
  · rename_i declares
    exact declarationList_part formed (Concrete.is_iff.mp declares) done
  · exact expression_sound formed done k

theorem slot_part (formed : c.WellFormed) (known : c.construct? = some .slot) {v : Option Sketch}
    (done : slot c = .ok v) : Part k c v.toList := by
  obtain ⟨inside, _, shape, -, filled⟩ := Slot.exists_of_fill_maybe (formed.fill known rfl rfl)
  cases Slot.eq_nil_of_fill filled
  rw [List.append_nil] at shape
  have head : c.nodes.head? = inside := by
    rw [shape]
    cases inside <;> rfl
  have read := mapM_option_ok done
  rw [head] at read
  have parts : Parts .slot c.nodes v.toList := by
    rw [shape]
    refine .of_forall₂ (forall₂_part ?_ read)
    intro d mem s read
    exact clause_sound (formed.of_mem_nodes (by simp [shape, mem])) read _
  exact parts.whole known rfl nofun (.inl nofun)

theorem forStatement_part (sound : Sound statement) (formed : c.WellFormed)
    (known : c.construct? = some .forStatement) (done : forStatement statement c = .ok s) :
    Part k c [s] := by
  obtain ⟨first, _, shape, isFirst, filled⟩ := Slot.exists_of_fill_one (formed.fill known rfl rfl)
  obtain ⟨test, _, rfl, isTest, filled⟩ := Slot.exists_of_fill_one filled
  obtain ⟨step, _, rfl, isStep, filled⟩ := Slot.exists_of_fill_one filled
  obtain ⟨inside, _, rfl, -, filled⟩ := Slot.exists_of_fill_one filled
  cases Slot.eq_nil_of_fill filled
  unfold forStatement at done
  rw [shape] at done
  obtain ⟨a, readFirst, done⟩ := bind_ok done
  obtain ⟨b, readTest, done⟩ := bind_ok done
  obtain ⟨d, readStep, done⟩ := bind_ok done
  obtain ⟨e, readBody, done⟩ := bind_ok done
  have parts : Parts .forStatement c.nodes (a.toList ++ (b.toList ++ (d.toList ++ [e]))) := by
    rw [shape]
    exact .cons (slot_part (formed.of_mem_nodes (by simp [shape])) (Concrete.is_iff.mp isFirst)
        readFirst)
      (.cons (slot_part (formed.of_mem_nodes (by simp [shape])) (Concrete.is_iff.mp isTest)
          readTest)
        (.cons (slot_part (formed.of_mem_nodes (by simp [shape])) (Concrete.is_iff.mp isStep)
            readStep)
          (.one (sound (formed.of_mem_nodes (by simp [shape])) readBody _))))
  refine Renders.joined (parts.whole known rfl nofun (.inl nofun)) (sketch_joins done ⟨?_, ?_, rfl⟩)
  · cases a <;> cases b <;> cases d <;> rfl
  · cases a <;> cases b <;> cases d <;> rfl

theorem loopTarget_part {target : Concrete} (formed : target.WellFormed)
    (done : loopTarget c target = .ok s) : Part k target [s] := by
  unfold loopTarget at done
  split at done
  · obtain ⟨name, readName, done⟩ := bind_ok done
    obtain ⟨declaration, single, done⟩ := bind_ok done
    have part : Part k target [declaration] :=
      Renders.joined (binding_sound formed readName k) (sketch_joins single ⟨rfl, rfl, rfl⟩)
    exact Renders.joined part (sketch_joins done ⟨rfl, rfl, rfl⟩)
  · exact expression_sound formed done k

/-- Parts that are left out hold no atoms. -/
theorem flatMap_filter {test : Concrete → Bool} {skips : Construct → Concrete → Bool}
    (skipped : ∀ d, test d = false → skips k d = true) (cs : List Concrete) :
    (cs.filter test).flatMap (Concrete.atomsIn skips k) =
      cs.flatMap (Concrete.atomsIn skips k) := by
  induction cs with
  | nil => rfl
  | cons d ds ih =>
    cases kept : test d with
    | true => simp [kept, ih]
    | false => simp [kept, ih, Concrete.atomsIn, skipped d kept]

/-- What is read of a construct but some parts that are left out. -/
theorem Members.leavingOut {cs : List Concrete} (test : Concrete → Bool)
    (left : ∀ d, test d = false → Concrete.isLeftOut k d = true)
    (h : Members k (cs.filter test) ss) : Members k cs ss := by
  unfold Members at h ⊢
  rw [flatMap_filter fun d out => by simp [Concrete.either, left d out], flatMap_filter left] at h
  exact Yields.weaken h (Concrete.tokensOf_sublist List.filter_sublist) (.refl _) (.refl _)

theorem Parts.leavingOut {cs : List Concrete} (test : Concrete → Bool)
    (left : ∀ d, test d = false → Concrete.isLeftOut k d = true)
    (h : Parts k (cs.filter test) ss) : Parts k cs ss :=
  ⟨Members.leavingOut test left h.toYields, h.free⟩

theorem forInStatement_part (sound : Sound statement) (formed : c.WellFormed)
    (known : c.construct? = some .forInStatement) (done : forInStatement statement c = .ok s) :
    Part k c [s] := by
  unfold forInStatement at done
  split at done
  · rename_i left right inside shape
    have formedAll : ∀ d ∈ [left, right, inside], d.WellFormed := by
      rw [← shape]
      exact fun d mem => formed.of_mem_nodes (List.mem_filter.mp mem).1
    obtain ⟨a, readLeft, done⟩ := bind_ok done
    obtain ⟨b, readRight, done⟩ := bind_ok done
    obtain ⟨d, readBody, done⟩ := bind_ok done
    have parts : Parts .forInStatement c.nodes [a, b, d] := by
      refine .leavingOut (fun n => !n.is .initializer) ?_ ?_
      · intro d out
        have out : d.is .initializer = true := by simpa using out
        simp [Concrete.isLeftOut, out]
      · rw [shape]
        exact .cons (loopTarget_part (formedAll left (by simp)) readLeft)
          (.cons (expression_sound (formedAll right (by simp)) readRight _)
            (.one (sound (formedAll inside (by simp)) readBody _)))
    exact Renders.joined (parts.whole known rfl (by decide) (.inl (by decide)))
      (sketch_joins done ⟨rfl, rfl, rfl⟩)
  · cases done

theorem whileStatement_part (sound : Sound statement) (formed : c.WellFormed)
    (known : c.construct? = some .whileStatement) (done : whileStatement statement c = .ok s) :
    Part k c [s] := by
  unfold whileStatement at done
  split at done
  · rename_i test inside shape
    obtain ⟨_, found, done⟩ := bind_ok done
    obtain ⟨a, readTest, done⟩ := bind_ok done
    obtain ⟨b, readBody, done⟩ := bind_ok done
    have parts : Parts .whileStatement c.nodes [a, b] := by
      rw [shape]
      exact .cons (condition_part (formed.of_mem_nodes (by simp [shape])) found readTest)
        (.one (sound (formed.of_mem_nodes (by simp [shape])) readBody _))
    exact Renders.joined (parts.whole known rfl nofun (.inl nofun))
      (sketch_joins done ⟨rfl, rfl, rfl⟩)
  · cases done

theorem doStatement_part (sound : Sound statement) (formed : c.WellFormed)
    (known : c.construct? = some .doStatement) (done : doStatement statement c = .ok s) :
    Part k c [s] := by
  unfold doStatement at done
  split at done
  · rename_i inside test shape
    obtain ⟨a, readBody, done⟩ := bind_ok done
    obtain ⟨_, found, done⟩ := bind_ok done
    obtain ⟨b, readTest, done⟩ := bind_ok done
    have parts : Parts .doStatement c.nodes [a, b] := by
      rw [shape]
      exact .cons (sound (formed.of_mem_nodes (by simp [shape])) readBody _)
        (.one (condition_part (formed.of_mem_nodes (by simp [shape])) found readTest))
    exact Renders.joined (parts.whole known rfl nofun (.inl nofun))
      (sketch_joins done ⟨rfl, rfl, rfl⟩)
  · cases done

/-! ## Branches -/

theorem switchClause_sound (sound : Sound statement) : Sound (switchClause statement) := by
  intro c s formed done k
  obtain ⟨j, known, done⟩ := bind_ok done
  have known := lift_ok known
  split at done
  · rename_i value statements shape _
    obtain ⟨v, readValue, done⟩ := bind_ok done
    obtain ⟨ss, read, done⟩ := bind_ok done
    have inside := forall₂_part (k := .switchCase)
      (fun d mem s read => sound (formed.of_mem_nodes (by simp [shape, mem])) read _)
      (mapM_ok read)
    have parts : Parts .switchCase c.nodes (v :: ss) := by
      rw [shape]
      exact .cons (expression_sound (formed.of_mem_nodes (by simp [shape])) readValue _)
        (.of_forall₂ inside)
    exact Renders.joined (parts.whole known rfl nofun (.inl nofun))
      (sketch_joins done (collects_call .caseClause v ss (fun _ _ => rfl) fun _ _ => rfl))
  · obtain ⟨ss, read, done⟩ := bind_ok done
    have inside := forall₂_part (k := .switchDefault)
      (fun d mem s read => sound (formed.of_mem_nodes mem) read _) (mapM_ok read)
    exact Renders.joined ((Parts.of_forall₂ inside).whole known rfl nofun (.inl nofun))
      (sketch_joins done ⟨rfl, List.range_eq_range'.symm, rfl⟩)
  · exact part_foreign done

theorem switchStatement_part (sound : Sound statement) (formed : c.WellFormed)
    (known : c.construct? = some .switchStatement) (done : switchStatement statement c = .ok s) :
    Part k c [s] := by
  unfold switchStatement at done
  split at done
  · rename_i value clauses shape
    obtain ⟨_, found, done⟩ := bind_ok done
    obtain ⟨v, readValue, done⟩ := bind_ok done
    obtain ⟨ss, read, done⟩ := bind_ok done
    have inside := forall₂_part (k := .switchStatement)
      (fun d mem s read => switchClause_sound sound (formed.of_mem_nodes (by simp [shape, mem]))
        read _) (mapM_ok read)
    have parts : Parts .switchStatement c.nodes (v :: ss) := by
      rw [shape]
      exact .cons (condition_part (formed.of_mem_nodes (by simp [shape])) found readValue)
        (.of_forall₂ inside)
    exact Renders.joined (parts.whole known rfl nofun (.inl nofun))
      (sketch_joins done (collects_call .switchStatement v ss (fun _ _ => rfl) fun _ _ => rfl))
  · cases done

theorem returnStatement_part (formed : c.WellFormed)
    (known : c.construct? = some .returnStatement) (done : returnStatement c = .ok s) :
    Part k c [s] := by
  obtain ⟨inside, _, shape, -, filled⟩ := Slot.exists_of_fill_maybe (formed.fill known rfl rfl)
  cases Slot.eq_nil_of_fill filled
  rw [List.append_nil] at shape
  have head : c.nodes.head? = inside := by
    rw [shape]
    cases inside <;> rfl
  obtain ⟨v, read, done⟩ := bind_ok done
  rw [head] at read
  have parts : Parts .returnStatement c.nodes v.toList := by
    rw [shape]
    exact optional_parts expression_sound
      (fun d same => formed.of_mem_nodes (by simp [shape, same])) read
  refine Renders.joined (parts.whole known rfl nofun (.inl nofun)) (sketch_joins done ⟨?_, ?_, rfl⟩)
  · cases v <;> rfl
  · cases v <;> rfl

/-! ## Statements -/

theorem exportStatement_part (sound : Sound statement) (formed : c.WellFormed)
    (known : c.construct? = some .exportStatement) (done : exportStatement statement c = .ok s) :
    Part k c [s] := by
  have whole : ∀ d ss, undecorated c = [d] → Member .exportStatement d ss →
      s.Heads c.tokens ss → Part k c [s] := by
    intro d ss alone member heads
    have members : Members .exportStatement c.nodes ss := by
      refine .leavingOut (fun n => !n.is .decorator) ?_ ?_
      · intro d out
        have out : d.is .decorator = true := by simpa using out
        simp [Concrete.isLeftOut, out]
      · rw [undecorated] at alone
        rw [alone]
        exact .one member
    exact heads.renders (members.whole known rfl (by decide) (.inl (by decide)))
  unfold exportStatement at done
  split at done
  · rename_i declaration alone
    have mem : declaration ∈ undecorated c := by rw [alone]; exact List.mem_cons_self
    have formed := formed.of_mem_nodes (List.mem_filter.mp mem).1
    split at done
    · exact part_foreign done
    · split at done
      · rename_i isFunction
        obtain ⟨ss, part, joins⟩ := function_joins sound formed (Concrete.is_iff.mp isFunction) done
        exact whole _ ss alone (.of_part part) (joins.heads part.free)
      · split at done
        · rename_i isClass
          obtain ⟨ss, member, heads⟩ :=
            classDeclaration_heads sound formed (Concrete.is_iff.mp isClass) done
          exact whole _ ss alone member heads
        · exact part_foreign done
  · exact part_foreign done

theorem statementWith_sound (sound : Sound statement) : Sound (statementWith statement) := by
  intro c s formed done k
  obtain ⟨j, known, done⟩ := bind_ok done
  have known := lift_ok known
  split at done
  · obtain ⟨list, read, done⟩ := bind_ok done
    exact Renders.joined (declarationList_part formed known read)
      (sketch_joins done ⟨rfl, rfl, rfl⟩)
  · obtain ⟨inside, _, shape, -, filled⟩ := Slot.exists_of_fill_one (formed.fill known rfl rfl)
    cases Slot.eq_nil_of_fill filled
    obtain ⟨_, head, done⟩ := bind_ok done
    rw [shape] at head
    cases lift_ok head
    obtain ⟨e, read, done⟩ := bind_ok done
    have parts : Parts .expressionStatement c.nodes [e] := by
      rw [shape]
      exact .one (expression_sound (formed.of_mem_nodes (by simp [shape])) read _)
    exact Renders.joined (parts.whole known rfl nofun (.inl nofun))
      (sketch_joins done ⟨rfl, rfl, rfl⟩)
  · exact block_part sound formed known done
  · exact ifStatement_part sound formed known done
  · exact forStatement_part sound formed known done
  · exact forInStatement_part sound formed known done
  · exact whileStatement_part sound formed known done
  · exact doStatement_part sound formed known done
  · exact switchStatement_part sound formed known done
  · obtain ⟨site, found, rfl⟩ := leaf_ok done
    have none := Slot.eq_nil_of_fill (formed.fill known rfl rfl)
    have parts : Parts .breakStatement c.nodes [] := by
      rw [none]
      exact .nil
    exact Renders.joined (parts.whole known rfl nofun (.inl nofun))
      ⟨site, _, rfl, site?_opens found, rfl, rfl⟩
  · exact returnStatement_part formed known done
  · obtain ⟨ss, part, joins⟩ := function_joins sound formed known done
    exact Renders.joined part joins
  · obtain ⟨ss, member, heads⟩ := classDeclaration_heads sound formed known done
    exact heads.renders member
  · exact exportStatement_part sound formed known done
  · exact part_foreign done

theorem statementWithin_sound (n : Nat) : Sound (statementWithin n) := by
  induction n with
  | zero =>
    intro c s formed done
    cases done
  | succ n ih => exact statementWith_sound ih

/-! ## Files -/

theorem filled_sourceFile (site : Site) (statements : List Sketch) (marker : Sketch) :
    (filled site do return .sourceFile (← many statements) (← one marker)) =
      .node site (.sourceFile (List.range' 0 statements.length) statements.length)
        (statements ++ [marker]) := rfl

/-- The marker at the end of a file stands at the end of its text. -/
theorem renders_marker {behind stop : Place} {rest : List Char} (ends : behind.after rest = stop) :
    Renders [.atEnd behind rest] [] []
      [.leaf ⟨stop.offset, stop.offset, behind.offset, stop.line, stop.column⟩ .endOfFile] := by
  subst ends
  exact Renders.joined .nil ⟨_, .endOfFile, rfl, ⟨_, rfl, nofun, rfl, rfl, rfl, rfl⟩, rfl, rfl⟩

theorem sourceFile_isFile (formed : c.WellFormed) (known : c.construct? = some .sourceFile)
    {text rest : List Char} {here : Place} (last : (c.last?.map Token.stop).getD .origin = here)
    (ends : here.after rest = Place.origin.after text) (done : sourceFile text c = .ok s) :
    s.IsFile (c.tokens ++ [Token.atEnd here rest]) c.retainedValues c.retained := by
  obtain ⟨statements, read, done⟩ := bind_ok done
  cases done
  rw [last]
  have inside := Parts.of_forall₂ (forall₂_part (k := .sourceFile)
    (fun d mem s read => statementWithin_sound _ (formed.of_mem_nodes mem) read _) (mapM_ok read))
  unfold Parts at inside
  rw [← Concrete.atoms_eq_flatMap known rfl, ← Concrete.atoms_eq_flatMap known rfl] at inside
  have whole := (inside.weaken c.tokensOf_nodes_sublist (.refl _) (.refl _)).append
    (renders_marker ends)
  rw [List.append_nil, List.append_nil] at whole
  rw [filled_sourceFile]
  refine ⟨⟨_, _, rfl⟩, .node (.plain rfl ?_ ?_) whole.fits, ?_, _, _, _, rfl, whole.along⟩
  · simp [NodeKind.children, List.range_eq_range', List.range'_1_concat]
  · intro part mem
    obtain ⟨p, known, rfl⟩ := List.mem_map.mp mem
    exact whole.free p known
  · intro supported
    simpa [Sketch.words, NodeKind.isWord, Concrete.retained, Concrete.retainedValues] using
      whole.words supported.parts

end Dartify.Abstraction

namespace Dartify

open Syntax

/-- The tree of a text is that of the sketch of its concrete tree. -/
theorem Tree.exists_sourceFile_of_ofText {fileName : String} {text : List Char} {tree : Tree}
    (ok : Tree.ofText fileName text = .ok tree) :
    ∃ c s, Grammar.read? text = some c ∧ Abstraction.sourceFile text c = .ok s ∧
      tree = s.tree fileName text := by
  unfold Tree.ofText at ok
  cases read : Grammar.read? text with
  | none =>
    rw [read] at ok
    cases ok
  | some c =>
    simp only [read] at ok
    cases done : Abstraction.sourceFile text c with
    | error fault =>
      rw [done] at ok
      cases ok
    | ok s =>
      rw [done] at ok
      exact ⟨c, s, rfl, done, (Except.ok.inj ok).symm⟩

/-- The tree of a text is that of a sketch, and the sketch is right about the concrete tree. -/
theorem Tree.exists_sketch_of_ofText {fileName : String} {text : List Char} {tree : Tree}
    (ok : Tree.ofText fileName text = .ok tree) :
    ∃ (c : Concrete) (s : Sketch) (here : Dartify.Place) (rest : List Char),
      Grammar.read? text = some c ∧ Covers text [c] here rest ∧
      (∃ markup, rest.length ≤ Lexical.trivia markup rest) ∧ tree = s.tree fileName text ∧
      s.IsFile (c.tokens ++ [Token.atEnd here rest]) c.retainedValues c.retained := by
  obtain ⟨c, s, read, done, same⟩ := exists_sourceFile_of_ofText ok
  obtain ⟨known, formed, -⟩ := Grammar.read?_spec read
  obtain ⟨here, rest, covers, blank⟩ := Grammar.exists_rest_of_read? read
  have last : (c.last?.map Token.stop).getD .origin = here := by
    rw [Concrete.last?_eq]
    exact covers.linked_tokens.last
  have ends : here.after rest = Place.origin.after text := by
    rw [covers.linked_tokens.after, ← Place.after_append, covers.spelled_tokens]
  exact ⟨c, s, here, rest, read, covers, blank, same,
    Abstraction.sourceFile_isFile formed known last ends done⟩

end Dartify
