import Dartify.Proofs.Comment.Items
import Dartify.Proofs.Dart.Coverage

/-! Block comments, read as Dart. They are copied as they stand, and in the source each ends with
the first end mark; but in Dart they nest, so that every opening in one asks for an end mark of its
own. Main statement: a block comment that is written ends for Dart where its copy ends exactly if it
is closed and holds no other opening. -/
namespace Dartify.Dart

/-! ## Nested comments -/

/-- What stands behind all block comments that are open, given how many there are. -/
def behindComments : Nat → List Char → Option (List Char)
  | 0, cs => some cs
  | _ + 1, [] => none
  | n + 1, '/' :: '*' :: cs => behindComments (n + 2) cs
  | n + 1, '*' :: '/' :: cs => behindComments n cs
  | n + 1, _ :: cs => behindComments (n + 1) cs

/-- What stands behind the block comment that a text begins with. -/
def behindBlock : List Char → Option (List Char)
  | '/' :: '*' :: cs => behindComments 1 cs
  | _ => none

def opensBlock : List Char → Bool
  | '/' :: '*' :: _ => true
  | _ => false

/-- A block comment that is closed, in which no other one opens, be it with the star of the end
mark. -/
def FlatBlock (comment : List Char) : Prop :=
  ∃ inner, comment = '/' :: '*' :: (inner ++ ['*', '/']) ∧ ¬ ['/', '*'] <:+: inner ++ ['*']

theorem opening_cons {c : Char} {cs : List Char} :
    ['/', '*'] <:+: c :: cs ↔ (c = '/' ∧ cs.head? = some '*') ∨ ['/', '*'] <:+: cs := by
  rw [List.infix_cons_iff, List.cons_prefix_cons]
  cases cs with
  | nil => simp
  | cons d cs => simp [List.cons_prefix_cons, eq_comm]

theorem length_behindComments {n : Nat} {cs rest : List Char}
    (read : behindComments n cs = some rest) : rest.length + 2 * n ≤ cs.length := by
  fun_induction behindComments n cs with
  | case1 cs => simp [← Option.some.inj read]
  | case2 n => cases read
  | case3 n cs ih =>
    have bound := ih read
    simp only [List.length_cons]
    omega
  | case4 n cs ih =>
    have bound := ih read
    simp only [List.length_cons]
    omega
  | case5 n c cs _ _ ih =>
    have bound := ih read
    simp only [List.length_cons]
    omega

theorem behindComments_append {n : Nat} {cs left : List Char}
    (read : behindComments n cs = some left) (rest : List Char) :
    behindComments n (cs ++ rest) = some (left ++ rest) := by
  fun_induction behindComments n cs with
  | case1 cs =>
    obtain rfl := Option.some.inj read
    rw [behindComments]
  | case2 n => cases read
  | case3 n cs ih => exact ih read
  | case4 n cs ih => exact ih read
  | case5 n c cs opens closes ih =>
    cases cs with
    | nil => cases read
    | cons d cs =>
      have opens' : ∀ cs', c = '/' → d :: (cs ++ rest) = '*' :: cs' → False := by
        rintro cs' rfl same
        exact opens cs rfl (congrArg (· :: cs) (List.cons.inj same).1)
      have closes' : ∀ cs', c = '*' → d :: (cs ++ rest) = '/' :: cs' → False := by
        rintro cs' rfl same
        exact closes cs rfl (congrArg (· :: cs) (List.cons.inj same).1)
      rw [List.cons_append, List.cons_append, behindComments.eq_5 _ _ _ opens' closes']
      exact ih read

theorem exists_of_behindComments_append {n : Nat} {cs rest left : List Char}
    (read : behindComments n (cs ++ rest) = some left) (short : rest.length ≤ left.length) :
    ∃ front, behindComments n cs = some front ∧ left = front ++ rest := by
  -- Where `cs` has run out with a comment open, too little would be left.
  fun_induction behindComments n cs with
  | case1 cs =>
    rw [behindComments] at read
    exact ⟨cs, rfl, (Option.some.inj read).symm⟩
  | case2 n =>
    have bound := length_behindComments read
    simp only [List.nil_append] at bound
    omega
  | case3 n cs ih => exact ih read
  | case4 n cs ih => exact ih read
  | case5 n c cs opens closes ih =>
    cases cs with
    | nil =>
      have bound := length_behindComments read
      simp only [List.singleton_append, List.length_cons] at bound
      omega
    | cons d cs =>
      have opens' : ∀ cs', c = '/' → d :: (cs ++ rest) = '*' :: cs' → False := by
        rintro cs' rfl same
        exact opens cs rfl (congrArg (· :: cs) (List.cons.inj same).1)
      have closes' : ∀ cs', c = '*' → d :: (cs ++ rest) = '/' :: cs' → False := by
        rintro cs' rfl same
        exact closes cs rfl (congrArg (· :: cs) (List.cons.inj same).1)
      rw [List.cons_append, List.cons_append, behindComments.eq_5 _ _ _ opens' closes'] at read
      exact ih read

/-- Whether a comment ends where its text ends does not depend on what follows. -/
theorem behindBlock_append_iff {comment : List Char} (opens : opensBlock comment = true)
    (rest : List Char) :
    behindBlock (comment ++ rest) = some rest ↔ behindBlock comment = some [] := by
  unfold opensBlock at opens
  split at opens
  · rename_i cs
    constructor
    · intro read
      obtain ⟨front, read, split⟩ := exists_of_behindComments_append read (Nat.le_refl _)
      obtain rfl : front = [] := List.append_left_eq_self.mp split.symm
      exact read
    · intro read
      exact behindComments_append read rest
  · cases opens

/-! ## Comments with one end mark -/

theorem behindComments_unclosed {n : Nat} {cs : List Char} (open? : 0 < n)
    (runs : ¬ ['*', '/'] <:+: cs) : behindComments n cs = none := by
  fun_induction behindComments n cs with
  | case1 cs => cases open?
  | case2 n => rfl
  | case3 n cs ih =>
    apply ih (Nat.succ_pos _)
    exact fun inside => runs (List.infix_cons (List.infix_cons inside))
  | case4 n cs ih => exact absurd (List.infix_append' [] ['*', '/'] cs) runs
  | case5 n c cs _ _ ih =>
    apply ih (Nat.succ_pos _)
    exact fun inside => runs (List.infix_cons inside)

theorem behindComments_deep {n : Nat} {cs : List Char} (deep : 1 < n)
    (first : ¬ ['*', '/'] <:+: cs.dropLast) : behindComments n cs = none := by
  fun_induction behindComments n cs with
  | case1 cs => cases deep
  | case2 n => rfl
  | case3 n cs ih =>
    apply ih (Nat.lt_succ_of_lt deep)
    intro inside
    cases cs with
    | nil => simp at inside
    | cons c cs => exact first (List.infix_cons (List.infix_cons inside))
  | case4 n cs ih =>
    cases cs with
    | nil => exact behindComments_unclosed (Nat.lt_of_succ_lt_succ deep) (by simp)
    | cons c cs => exact absurd (List.infix_append' [] ['*', '/'] _) first
  | case5 n c cs _ _ ih =>
    apply ih deep
    intro inside
    cases cs with
    | nil => simp at inside
    | cons d cs => exact first (List.infix_cons inside)

/-- Up to its first end mark a text closes one comment, unless another one opens. -/
theorem behindComments_closed_iff {inner : List Char}
    (first : ¬ ['*', '/'] <:+: inner ++ ['*']) :
    behindComments 1 (inner ++ ['*', '/']) = some [] ↔ ¬ ['/', '*'] <:+: inner ++ ['*'] := by
  induction inner with
  | nil => simp [behindComments, opening_cons]
  | cons c inner ih =>
    rw [List.cons_append, Comment.endMark_cons, not_or] at first
    have later : inner ++ ['*', '/'] = (inner ++ ['*']) ++ ['/'] := by simp
    rw [List.cons_append, List.cons_append, opening_cons, later]
    by_cases opens : c = '/' ∧ (inner ++ ['*']).head? = some '*'
    · obtain ⟨rfl, star⟩ := opens
      obtain ⟨cs, split⟩ := List.head?_eq_some_iff.mp star
      -- Two comments are open then, and there is one end mark.
      have deep : behindComments 2 (cs ++ ['/']) = none := by
        apply behindComments_deep (by decide)
        rw [List.dropLast_concat]
        exact fun inside => first.2 (split ▸ List.infix_cons inside)
      simp [split, behindComments, deep]
    · have next : ∀ {d : Char} {cs : List Char}, inner ++ ['*'] ++ ['/'] = d :: cs →
          (inner ++ ['*']).head? = some d := by
        intro d cs split
        cases inner with
        | nil => exact congrArg some (List.cons.inj split).1
        | cons e inner => exact congrArg some (List.cons.inj split).1
      have plain : ∀ cs, c = '/' → inner ++ ['*'] ++ ['/'] = '*' :: cs → False :=
        fun cs slash split => opens ⟨slash, next split⟩
      have runs : ∀ cs, c = '*' → inner ++ ['*'] ++ ['/'] = '/' :: cs → False :=
        fun cs star split => first.1 ⟨star, next split⟩
      rw [behindComments.eq_5 _ _ _ plain runs, ← later, ih first.2, or_iff_right opens]

/-- A block comment of the source ends for Dart where it ends exactly if it is flat. -/
theorem behindBlock_body_iff {cs body : List Char} (comment : Comment.body? cs = some body)
    (opens : opensBlock body = true) : behindBlock body = some [] ↔ FlatBlock body := by
  unfold Comment.body? at comment
  split at comment
  · cases comment
    cases opens
  · rename_i inner
    cases comment
    rcases Comment.closing_cases inner with ⟨body, rest, rfl, first⟩ | runs
    · rw [Comment.closing_block rest first]
      have same : FlatBlock ('/' :: '*' :: (body ++ ['*', '/'])) ↔
          ¬ ['/', '*'] <:+: body ++ ['*'] := by
        constructor
        · rintro ⟨inner, split, flat⟩
          have eq : inner = body := by simpa using split.symm
          exact eq ▸ flat
        · exact fun flat => ⟨body, rfl, flat⟩
      rw [same]
      exact behindComments_closed_iff first
    · rw [Comment.closing_unclosed runs, behindBlock,
        behindComments_unclosed Nat.one_pos runs]
      constructor
      · intro read
        cases read
      · rintro ⟨body, split, -⟩
        obtain rfl : inner = body ++ ['*', '/'] := by simpa using split
        exact absurd (List.infix_append' body ['*', '/'] []) (by simpa using runs)
  · cases comment

/-! ## Comments that are written -/

theorem exists_marks_of_translateText {fileName text out : String}
    (translated : translateText fileName text = .ok out) :
    ∃ tree, Tree.ofText fileName text.toList = .ok tree ∧
      out = render ((marks tree).map (Mark.piece tree.text)) := by
  unfold translateText at translated
  split at translated
  · cases translated
  · rename_i tree read
    split at translated
    · rename_i pieces emitted
      obtain ⟨-, rfl⟩ := (emit_eq_ok_iff tree pieces).mp emitted
      exact ⟨tree, read, (Except.ok.inj translated).symm⟩
    · cases translated

/-- Of a text that is translated, each block comment that is written ends for Dart where its copy
ends, whatever is written behind it, exactly if it is flat. -/
theorem translateText_blockComments {fileName text out : String}
    (translated : translateText fileName text = .ok out) :
    ∃ tree, Tree.ofText fileName text.toList = .ok tree ∧
      out = render ((marks tree).map (Mark.piece tree.text)) ∧
      ∀ r, Mark.comment r ∈ marks tree → opensBlock (r.text tree.text).toList = true →
        ∀ rest, behindBlock ((r.text tree.text).toList ++ rest) = some rest ↔
          FlatBlock (r.text tree.text).toList := by
  obtain ⟨tree, read, shown⟩ := exists_marks_of_translateText translated
  refine ⟨tree, read, shown, ?_⟩
  intro r mem opens rest
  rw [behindBlock_append_iff opens]
  obtain ⟨front, body, behind, split, comment, rfl⟩ := (comment_mem_marks mem).parts
  rw [split, Comment.Range.text_eq, String.toList_ofList] at opens ⊢
  exact behindBlock_body_iff comment opens

/-- A comment that is closed where it ends in the source, but opened twice. -/
def twiceOpened : String := "/* /* */\nf();"

/-- A comment with a slash and a star in it, but apart. -/
def onceOpened : String := "/* / * */\nf();"

theorem translateText_opened :
    (translateText "a.ts" onceOpened).toOption = some " /* / * */\n f ( ) ;" ∧
      (translateText "a.ts" twiceOpened).toOption = some " /* /* */\n f ( ) ;" ∧
      (Tree.ofText "a.ts" twiceOpened.toList).toOption.any (fun tree =>
        Mark.comment ⟨0, 8, true⟩ ∈ marks tree ∧
          (Comment.Range.mk 0 8 true).text tree.text = "/* /* */") = true := by
  decide +kernel

/-- The comment is copied, and Dart finds no end of it in all that is written. -/
theorem translateText_twiceOpened :
    ∃ tree r, Tree.ofText "a.ts" twiceOpened.toList = .ok tree ∧
      translateText "a.ts" twiceOpened = .ok " /* /* */\n f ( ) ;" ∧
      Mark.comment r ∈ marks tree ∧ r.text tree.text = "/* /* */" ∧
      behindBlock "/* /* */\n f ( ) ;".toList = none := by
  obtain ⟨-, out, copied⟩ := translateText_opened
  obtain ⟨tree, read, facts⟩ := exists_ok_of_any copied
  obtain ⟨mem, text⟩ := of_decide_eq_true facts
  exact ⟨tree, _, read, ok_of_toOption out, mem, text, by decide⟩

/-- A comment that is opened once is closed where its copy ends. -/
theorem translateText_flatComment :
    translateText "a.ts" onceOpened = .ok " /* / * */\n f ( ) ;" ∧
      ∃ tree, Tree.ofText "a.ts" onceOpened.toList = .ok tree ∧
        " /* / * */\n f ( ) ;" = render ((marks tree).map (Mark.piece tree.text)) ∧
        ∀ r, Mark.comment r ∈ marks tree → opensBlock (r.text tree.text).toList = true →
          ∀ rest, behindBlock ((r.text tree.text).toList ++ rest) = some rest ↔
            FlatBlock (r.text tree.text).toList := by
  have translated := ok_of_toOption translateText_opened.1
  exact ⟨translated, translateText_blockComments translated⟩

end Dartify.Dart
