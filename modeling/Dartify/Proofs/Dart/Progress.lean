import Dartify.Proofs.Dart.Coverage

/-! The cursor of a run. What it admits is told by all comments that were presented before: one is
written exactly if it starts behind each of them, written or not. A node presents its comments
whenever it is visited, so a second visit adds none. Main statement: the comments of a run, cut short
or not, are written from front to back, and each visit in it writes those that are new. -/
namespace Dartify

/-! ## What a cursor has seen -/

namespace Comment.Cursor

/-- A cursor stands at the furthest of some comments. -/
def Furthest (c : Cursor) (seen : List Range) : Prop :=
  ∀ n, c.admits n = true ↔ ∀ r ∈ seen, r.start < n

theorem furthest_initial : initial.Furthest [] := fun _ => by simp [initial, admits]

theorem Furthest.admitted {c : Cursor} {seen : List Range} (furthest : c.Furthest seen) {r : Range}
    (new : c.admits r.start = true) : (Cursor.mk (some r.start)).Furthest (seen ++ [r]) := by
  have behind := (furthest r.start).mp new
  intro n
  rw [admits_after_iff]
  constructor
  · intro less x mem
    rcases List.mem_append.mp mem with mem | mem
    · exact Nat.lt_trans (behind x mem) less
    · obtain rfl := List.mem_singleton.mp mem
      exact less
  · intro all
    exact all r (List.mem_append_right seen List.mem_cons_self)

theorem Furthest.refused {c : Cursor} {seen : List Range} (furthest : c.Furthest seen) {r : Range}
    (old : ¬ c.admits r.start = true) : c.Furthest (seen ++ [r]) := by
  intro n
  rw [furthest n]
  constructor
  · intro all x mem
    rcases List.mem_append.mp mem with mem | mem
    · exact all x mem
    · obtain rfl := List.mem_singleton.mp mem
      apply Nat.lt_of_not_le
      intro ahead
      apply old
      rw [furthest x.start]
      exact fun y mem => Nat.lt_of_lt_of_le (all y mem) ahead
  · exact fun all x mem => all x (List.mem_append_left [r] mem)

theorem admits_of_mem_kept {c : Cursor} {presented : List Range} {r : Range}
    (mem : r ∈ c.kept presented) : c.admits r.start = true := by
  induction presented generalizing c with
  | nil => cases mem
  | cons x presented ih =>
    rw [kept] at mem
    split at mem
    · rename_i new
      rcases List.mem_cons.mp mem with rfl | mem
      · exact new
      · cases refused : c.admits r.start with
        | true => rfl
        | false =>
          have later := refuses_after refused new
          rw [ih mem] at later
          cases later
    · exact ih mem

/-- What a cursor lets through goes from front to back. -/
theorem pairwise_kept (c : Cursor) (presented : List Range) :
    (c.kept presented).Pairwise (·.start < ·.start) := by
  induction presented generalizing c with
  | nil => exact .nil
  | cons x presented ih =>
    rw [kept]
    split
    · apply List.Pairwise.cons _ (ih _)
      intro r mem
      exact (admits_after_iff ..).mp (admits_of_mem_kept mem)
    · exact ih c

end Comment.Cursor

namespace Dart

/-! ## The draft behind some steps -/

/-- What is left of a run behind some steps. -/
def Draft.behind (tree : Tree) (steps : List Step) : Draft :=
  (steps.flatMap (Step.marks tree)).foldl (Draft.put tree.text) .empty

/-- A mark that is put into a draft moves the cursor if it is a comment that lies ahead. -/
theorem furthest_put {d : Draft} {seen : List Comment.Range} (furthest : d.cursor.Furthest seen)
    (text : List Char) (m : Mark) :
    (d.put text m).cursor.Furthest (seen ++ m.comment?.toList) := by
  cases m with
  | comment r =>
    rw [Draft.put]
    split
    · rename_i new
      exact furthest.admitted new
    · rename_i old
      exact furthest.refused old
  | code text => simpa [Draft.put] using furthest
  | lineFeed => simpa [Draft.put] using furthest

theorem furthest_foldl_put {d : Draft} {seen : List Comment.Range}
    (furthest : d.cursor.Furthest seen) (text : List Char) (ms : List Mark) :
    (ms.foldl (Draft.put text) d).cursor.Furthest (seen ++ ms.filterMap Mark.comment?) := by
  induction ms generalizing d seen with
  | nil => simpa using furthest
  | cons m ms ih =>
    have rest := ih (furthest_put furthest text m)
    cases comment : m.comment? with
    | none => simpa [comment] using rest
    | some r => simpa [comment] using rest

theorem furthest_behind (tree : Tree) (steps : List Step) :
    (Draft.behind tree steps).cursor.Furthest (presentedBy tree steps) := by
  have start : Draft.empty.cursor.Furthest [] := Comment.Cursor.furthest_initial
  exact furthest_foldl_put start tree.text _

theorem Draft.behind_append (tree : Tree) (steps rest : List Step) :
    Draft.behind tree (steps ++ rest) =
      (rest.flatMap (Step.marks tree)).foldl (Draft.put tree.text) (Draft.behind tree steps) := by
  rw [behind, behind, List.flatMap_append, List.foldl_append]

/-! ## Visits -/

/-- A run visits a node at a depth with a draft: it begins with the root, and a node is visited with
what its parent's comments and the steps before it in the script have left. -/
inductive Visited (tree : Tree) : Nat → NodeId → Draft → Prop
  | root : Visited tree (depthLimit tree) tree.root .empty
  | child {depth : Nat} {id child : NodeId} {n : Node} {front back : List Step} {d d' d'' : Draft}
      (visited : Visited tree (depth + 1) id d) (found : tree.node? id = some n)
      (scripted : script (tree.enclosingClassName id) n.kind = .ok (front ++ .enter child :: back))
      (commented : outcome ((tree.leadingComments n).forM (Emit.comment tree.text)) d = (.ok (), d'))
      (done : outcome (Emit.follow (visit tree depth) front) d' = (.ok (), d'')) :
      Visited tree depth child d''

namespace Course

theorem stop_of_answer {c : Course} (ok : c.answer = .ok ()) : c.stop = none := by
  unfold answer at ok
  split at ok
  · rename_i none
    exact none
  · cases ok

theorem steps_append {first : Course} (through : first.stop = none) (rest : Course) :
    (first.append rest).steps = first.steps ++ rest.steps := by
  rw [append, through]
  rfl

theorem exists_steps_append (first rest : Course) :
    ∃ later, (first.append rest).steps = first.steps ++ later := by
  cases stop : first.stop with
  | none => exact ⟨rest.steps, steps_append stop rest⟩
  | some s => exact ⟨[], by simp [append, stop]⟩

theorem steps_ofScript_append {inner : NodeId → Course} {front : List Step}
    (through : (ofScript inner front).stop = none) (back : List Step) :
    (ofScript inner (front ++ back)).steps =
      (ofScript inner front).steps ++ (ofScript inner back).steps := by
  induction front with
  | nil => rfl
  | cons step front ih =>
    cases step with
    | enter id =>
      rw [ofScript] at through
      obtain ⟨first, rest, split⟩ := append_stop through
      rw [List.cons_append, ofScript, ofScript, split, steps_append first, ih rest,
        List.append_assoc]
    | code text => exact congrArg (Step.code text :: ·) (ih through)
    | lineFeed => exact congrArg (Step.lineFeed :: ·) (ih through)

end Course

theorem outcome_leadingComments {tree : Tree} {id : NodeId} {n : Node}
    (found : tree.node? id = some n) (steps : List Step) :
    outcome ((tree.leadingComments n).forM (Emit.comment tree.text)) (Draft.behind tree steps) =
      (.ok (), Draft.behind tree (steps ++ [.enter id])) := by
  have entered : (tree.leadingComments n).map Mark.comment = [Step.enter id].flatMap (Step.marks tree) := by
    simp [Step.marks, Tree.commentsOf, found]
  rw [Course.outcome_comments, entered, Draft.behind_append]

/-- Every visit of a run has its place in the course: the draft is what the steps before have
left. -/
theorem visited_course {tree : Tree} {depth : Nat} {id : NodeId} {d : Draft}
    (visited : Visited tree depth id d) :
    ∃ earlier later, (wholeCourse tree).steps = earlier ++ ((course tree depth id).steps ++ later) ∧
      d = Draft.behind tree earlier := by
  induction visited with
  | root => exact ⟨[], [], (List.append_nil _).symm, rfl⟩
  | @child depth id child n front back d d' d'' visited found scripted commented done ih =>
    obtain ⟨earlier, later, whole, rfl⟩ := ih
    rw [outcome_leadingComments found] at commented
    cases commented
    rw [Course.taken_script (Course.taken_visit tree depth) front] at done
    obtain ⟨answer, rfl⟩ := Prod.mk.inj done
    have through := Course.stop_of_answer answer
    have steps : (course tree (depth + 1) id).steps =
        .enter id :: (Course.ofScript (course tree depth) (front ++ .enter child :: back)).steps := by
      simp only [course, found, scripted]
      rfl
    obtain ⟨behind, split⟩ := Course.exists_steps_append (course tree depth child)
      (Course.ofScript (course tree depth) back)
    refine ⟨earlier ++ [.enter id] ++ (Course.ofScript (course tree depth) front).steps,
      behind ++ later, ?_, ?_⟩
    · rw [whole, steps, Course.steps_ofScript_append through, Course.ofScript, split]
      simp
    · rw [Draft.behind_append tree _ (Course.ofScript (course tree depth) front).steps]
      rfl

/-! ## Comments at a visit -/

theorem outcome_comment_iff {tree : Tree} {d : Draft} {seen : List Comment.Range}
    (furthest : d.cursor.Furthest seen) (r : Comment.Range) :
    outcome (Emit.comment tree.text r) d =
      (.ok (), if ∀ x ∈ seen, x.start < r.start then
          ⟨d.pieces.push (.comment (r.text tree.text) r.endsLine), ⟨some r.start⟩⟩
        else d) := by
  rw [Course.outcome_comment, Draft.put]
  simp only [furthest r.start]
  rfl

/-- A node that was entered before presents nothing new. -/
theorem outcome_entered {tree : Tree} {steps : List Step} {id : NodeId} {n : Node}
    (found : tree.node? id = some n) (entered : .enter id ∈ steps) :
    outcome ((tree.leadingComments n).forM (Emit.comment tree.text)) (Draft.behind tree steps) =
      (.ok (), Draft.behind tree steps) := by
  have seen : ∀ r ∈ tree.leadingComments n, r ∈ presentedBy tree steps := by
    intro r mem
    apply mem_presentedBy_iff.mpr
    exact ⟨id, entered, by simpa [Tree.commentsOf, found] using mem⟩
  rw [Course.outcome_comments]
  congr 1
  generalize tree.leadingComments n = rs at seen
  induction rs with
  | nil => rfl
  | cons r rs ih =>
    have old : ¬ (Draft.behind tree steps).cursor.admits r.start = true := by
      rw [furthest_behind tree steps r.start]
      exact fun all => Nat.lt_irrefl _ (all r (seen r List.mem_cons_self))
    rw [List.map_cons, List.foldl_cons, Draft.put, if_neg old]
    exact ih fun x mem => seen x (List.mem_cons_of_mem r mem)

/-- What becomes of the comments at a visit, when some steps have been taken. -/
structure Presents (tree : Tree) (depth : Nat) (id : NodeId) (n : Node) (d : Draft)
    (earlier : List Step) : Prop where
  /-- A comment is written exactly if it starts behind all that were presented. -/
  fresh : ∀ {front back : List Comment.Range} {r : Comment.Range},
    tree.leadingComments n = front ++ r :: back →
      ∃ d', outcome (front.forM (Emit.comment tree.text)) d = (.ok (), d') ∧
        outcome (Emit.comment tree.text r) d' =
          (.ok (), if ∀ x ∈ presentedBy tree earlier ++ front, x.start < r.start then
              ⟨d'.pieces.push (.comment (r.text tree.text) r.endsLine), ⟨some r.start⟩⟩
            else d')
  /-- A second visit writes none. -/
  again : .enter id ∈ earlier →
    outcome ((tree.leadingComments n).forM (Emit.comment tree.text)) d = (.ok (), d)
  /-- Nor does the name of a class in front of its constructor, if it was visited as such. -/
  className : ∀ {parameters : List NodeId} {body name : NodeId} {m : Node},
    n.kind = .constructor parameters body → tree.enclosingClassName id = some name →
      tree.node? name = some m → .enter name ∈ earlier →
        ∃ d', outcome ((tree.leadingComments n).forM (Emit.comment tree.text)) d = (.ok (), d') ∧
          Visited tree depth name d' ∧
            outcome ((tree.leadingComments m).forM (Emit.comment tree.text)) d' = (.ok (), d')

theorem presents_of_visited {tree : Tree} {depth : Nat} {id : NodeId} {n : Node}
    {earlier : List Step} (visited : Visited tree (depth + 1) id (Draft.behind tree earlier))
    (found : tree.node? id = some n) :
    Presents tree depth id n (Draft.behind tree earlier) earlier where
  fresh := by
    intro front back r parts
    refine ⟨_, Course.outcome_comments tree.text front _, ?_⟩
    apply outcome_comment_iff
    have furthest := furthest_foldl_put (furthest_behind tree earlier) tree.text
      (front.map Mark.comment)
    simpa [List.filterMap_map, Function.comp_def] using furthest
  again := outcome_entered found
  className := by
    intro parameters body name m kind enclosing named entered
    have commented := outcome_leadingComments found earlier
    have scripted : script (tree.enclosingClassName id) n.kind =
        .ok ([] ++ .enter name :: (Script.bracketed "(" ")" parameters ++ [.enter body])) := by
      rw [kind, enclosing]
      rfl
    exact ⟨_, commented, .child visited found scripted commented rfl,
      outcome_entered named (List.mem_append_left _ entered)⟩

/-- What a run has written when it ends, cut short or not, are the marks of its tree, with the starts
of the comments in strict order; and every visit in it has its place in the course, so that its
comments are written exactly if they start behind all that were presented before. -/
theorem run_comments (tree : Tree) :
    (run tree).2.pieces.toList = (marks tree).map (Mark.piece tree.text) ∧
      (written tree).Pairwise (·.start < ·.start) ∧ (written tree).Nodup ∧
      ∀ {depth : Nat} {id : NodeId} {n : Node} {d : Draft}, Visited tree (depth + 1) id d →
        tree.node? id = some n →
          ∃ earlier later, (wholeCourse tree).steps = earlier ++ .enter id :: later ∧
            d = Draft.behind tree earlier ∧ Presents tree depth id n d earlier := by
  have forward : (written tree).Pairwise (·.start < ·.start) := by
    rw [written_eq]
    exact Comment.Cursor.pairwise_kept ..
  refine ⟨?_, forward, ?_, ?_⟩
  · rw [run_eq]
    exact Draft.pieces_foldl_put tree.text _ .empty
  · apply forward.imp
    rintro r x less rfl
    exact Nat.lt_irrefl _ less
  · intro depth id n d visited found
    obtain ⟨earlier, later, whole, rfl⟩ := visited_course visited
    obtain ⟨later', begins⟩ : ∃ later', (course tree (depth + 1) id).steps = .enter id :: later' := by
      simp only [course, found]
      split
      all_goals exact ⟨_, rfl⟩
    rw [begins] at whole
    exact ⟨earlier, later' ++ later, whole, rfl, presents_of_visited visited found⟩

deriving instance DecidableEq for Draft

/-- A class with a comment in front of its name, and with a constructor. -/
def namedTwice : Tree where
  fileName := "a.ts"
  text := ['/', '/', '\n', 'A']
  arena := Arena.empty.push (.identifier "A") ⟨3, 4, 0, 1, 0⟩
    |>.push (.block []) ⟨4, 4, 4, 1, 1⟩
    |>.push (.constructor [] 1) ⟨4, 4, 4, 1, 1⟩
    |>.push (.classDeclaration 0 none [] [2]) ⟨3, 4, 4, 1, 0⟩
  root := 3

def namedOnce : Draft :=
  ⟨#[.code "class", .comment "//" true, .code "A", .code "\x7b"], ⟨some 0⟩⟩

/-- The name is visited again in front of the constructor, and its comment is not written again. -/
theorem namedTwice_quiet :
    Visited namedTwice 4 2 namedOnce ∧ Visited namedTwice 3 0 namedOnce ∧
      outcome ([⟨0, 2, true⟩].forM (Emit.comment namedTwice.text)) namedOnce =
        (.ok (), namedOnce) := by
  have wholeClass : namedTwice.node? 3 =
    some ⟨.classDeclaration 0 none [] [2], ⟨3, 4, 4, 1, 0⟩, none⟩ := rfl
  have constructed : namedTwice.node? 2 =
    some ⟨.constructor [] 1, ⟨4, 4, 4, 1, 1⟩, some 3⟩ := rfl
  have named : namedTwice.node? 0 = some ⟨.identifier "A", ⟨3, 4, 0, 1, 0⟩, some 3⟩ := rfl
  have bare : namedTwice.leadingComments ⟨.classDeclaration 0 none [] [2], ⟨3, 4, 4, 1, 0⟩, none⟩ =
      [] := by
    decide +kernel
  have silent : namedTwice.leadingComments ⟨.constructor [] 1, ⟨4, 4, 4, 1, 1⟩, some 3⟩ = [] := by
    decide +kernel
  have comments : namedTwice.leadingComments ⟨.identifier "A", ⟨3, 4, 0, 1, 0⟩, some 3⟩ =
      [⟨0, 2, true⟩] := by
    decide +kernel
  have done : outcome (Emit.follow (visit namedTwice 4)
      [.code "class", .enter 0, .code "\x7b"]) .empty = (.ok (), namedOnce) := by
    apply Prod.ext
    · exact ok_of_toOption (by decide +kernel)
    · decide +kernel
  have inner : Visited namedTwice 4 2 namedOnce := by
    have scripted : script (namedTwice.enclosingClassName 3) (.classDeclaration 0 none [] [2]) =
      .ok ([.code "class", .enter 0, .code "\x7b"] ++ .enter 2 :: [.code "\x7d"]) := rfl
    apply Visited.child .root wholeClass scripted _ done
    rw [bare]
    rfl
  obtain ⟨earlier, later, whole, -, presents⟩ := (run_comments namedTwice).2.2.2 inner constructed
  have entered : .enter 0 ∈ earlier := by
    have place : ∀ k : Fin 14, (wholeCourse namedTwice).steps[k.val]? = some (.enter 2) →
        .enter 0 ∈ (wholeCourse namedTwice).steps.take k := by
      decide +kernel
    have size : (wholeCourse namedTwice).steps.length = 14 := by decide +kernel
    rw [whole] at place size
    have bound : earlier.length < 14 := by
      rw [← size]
      simp
    simpa using place ⟨earlier.length, bound⟩
  obtain ⟨d, commented, again, quiet⟩ := presents.className rfl rfl named entered
  rw [silent] at commented
  cases commented
  rw [comments] at quiet
  exact ⟨inner, again, quiet⟩

end Dart

end Dartify
