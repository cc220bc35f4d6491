import Mathlib.Data.List.TakeWhile
import Dartify.Proofs.Comment.Trivia

/-! Trivia as a grammar: line breaks, blanks and comments one behind the other, as many as there
are. Main statement: the leading comments found from an offset are the comments of the run of trivia
there that stand behind one of its line breaks, or all of them at the start of the text. -/
namespace Dartify.Comment

inductive Item where
  | lineBreak (text : List Char)
  | blank (c : Char)
  | comment (text : List Char)
deriving DecidableEq

namespace Item

def text : Item → List Char
  | lineBreak text => text
  | blank c => [c]
  | comment text => text

/-- An item stands in front of a rest of the text. A carriage return is one line break with a line
feed behind it; a line comment goes up to the next line break, and a block comment through the first
end mark behind its opening, or each to the end of the text. -/
inductive Stands : Item → List Char → Prop
  | pair (rest : List Char) : Stands (lineBreak ['\r', '\n']) rest
  | lineBreak {c : Char} {rest : List Char} (ends : Text.isLineBreak c = true)
      (single : c = '\r' → rest.head? ≠ some '\n') : Stands (lineBreak [c]) rest
  | blank {c : Char} (rest : List Char) (runs : Text.isHorizontalBlank c = true) :
      Stands (blank c) rest
  | line {inner rest : List Char} (runs : ∀ c ∈ inner, Text.isLineBreak c = false)
      (ends : ∀ c, rest.head? = some c → Text.isLineBreak c = true) :
      Stands (comment ('/' :: '/' :: inner)) rest
  | block {inner : List Char} (rest : List Char) (first : ¬ ['*', '/'] <:+: inner ++ ['*']) :
      Stands (comment ('/' :: '*' :: (inner ++ ['*', '/']))) rest
  | unclosed {inner : List Char} (runs : ¬ ['*', '/'] <:+: inner) :
      Stands (comment ('/' :: '*' :: inner)) []

end Item

/-- A text begins with a run of trivia, behind which no further item stands. -/
inductive Trivia : List Char → List Item → List Char → Prop
  | none {cs : List Char}
      (ends : ∀ (item : Item) (rest : List Char), cs = item.text ++ rest → ¬ item.Stands rest) :
      Trivia cs [] cs
  | cons {item : Item} {items : List Item} {behind rest : List Char} (stands : item.Stands behind)
      (more : Trivia behind items rest) : Trivia (item.text ++ behind) (item :: items) rest

/-! ## Reading an item -/

theorem endMark_cons {c : Char} {cs : List Char} :
    ['*', '/'] <:+: c :: cs ↔ (c = '*' ∧ cs.head? = some '/') ∨ ['*', '/'] <:+: cs := by
  rw [List.infix_cons_iff, List.cons_prefix_cons]
  cases cs with
  | nil => simp
  | cons d cs => simp [List.cons_prefix_cons, eq_comm]

theorem closing_block {inner : List Char} (rest : List Char)
    (first : ¬ ['*', '/'] <:+: inner ++ ['*']) :
    closing (inner ++ '*' :: '/' :: rest) = inner ++ ['*', '/'] := by
  induction inner with
  | nil => rfl
  | cons c inner ih =>
    rw [List.cons_append, endMark_cons, not_or] at first
    have early : ∀ cs, c = '*' → inner ++ '*' :: '/' :: rest = '/' :: cs → False := by
      intro cs star slash
      apply first.1
      cases inner with
      | nil => simp at slash
      | cons d inner =>
        obtain ⟨rfl, -⟩ := List.cons.inj slash
        exact ⟨star, rfl⟩
    rw [List.cons_append, closing.eq_3 _ _ early, ih first.2]
    rfl

theorem closing_unclosed {inner : List Char} (runs : ¬ ['*', '/'] <:+: inner) :
    closing inner = inner := by
  induction inner with
  | nil => rfl
  | cons c inner ih =>
    rw [endMark_cons, not_or] at runs
    have early : ∀ cs, c = '*' → inner = '/' :: cs → False := by
      rintro cs rfl rfl
      exact runs.1 ⟨rfl, rfl⟩
    rw [closing.eq_3 _ _ early, ih runs.2]

theorem closing_cases (cs : List Char) :
    (∃ inner rest, cs = inner ++ '*' :: '/' :: rest ∧ ¬ ['*', '/'] <:+: inner ++ ['*']) ∨
      ¬ ['*', '/'] <:+: cs := by
  induction cs with
  | nil => exact Or.inr (by simp)
  | cons c cs ih =>
    by_cases closes : c = '*' ∧ cs.head? = some '/'
    · obtain ⟨rfl, slash⟩ := closes
      obtain ⟨rest, rfl⟩ := List.head?_eq_some_iff.mp slash
      exact Or.inl ⟨[], rest, rfl, by simp [endMark_cons]⟩
    · rcases ih with ⟨inner, rest, rfl, first⟩ | runs
      · refine Or.inl ⟨c :: inner, rest, rfl, ?_⟩
        rw [List.cons_append, endMark_cons, not_or]
        refine ⟨?_, first⟩
        rintro ⟨star, slash⟩
        apply closes
        refine ⟨star, ?_⟩
        cases inner with
        | nil => simp at slash
        | cons d inner => simpa using slash
      · exact Or.inr (by rw [endMark_cons, not_or]; exact ⟨closes, runs⟩)

theorem lineText_append {inner rest : List Char} (runs : ∀ c ∈ inner, Text.isLineBreak c = false)
    (ends : ∀ c, rest.head? = some c → Text.isLineBreak c = true) :
    lineText (inner ++ rest) = inner := by
  have stop : lineText rest = [] := by
    cases rest with
    | nil => rfl
    | cons c rest => simp [lineText, ends c rfl]
  rw [lineText, List.takeWhile_append_of_pos (by simpa using runs)]
  simpa [lineText] using stop

theorem body?_of_stands {body rest : List Char} (stands : (Item.comment body).Stands rest) :
    body? (body ++ rest) = some body := by
  cases stands with
  | line runs ends => simp [body?, lineText_append runs ends]
  | @block inner _ first => simpa [body?] using closing_block rest first
  | unclosed runs => simp [body?, closing_unclosed runs]

theorem stands_of_body? {cs body : List Char} (h : body? cs = some body) :
    ∃ rest, cs = body ++ rest ∧ (Item.comment body).Stands rest := by
  unfold body? at h
  split at h
  · rename_i inner
    cases h
    refine ⟨inner.dropWhile (!Text.isLineBreak ·), ?_, .line ?_ ?_⟩
    · simp [lineText]
    · intro c mem
      simpa using List.mem_takeWhile_imp mem
    · intro c first
      have visible := List.head?_dropWhile_not (!Text.isLineBreak ·) inner
      rw [first] at visible
      simpa using visible
  · rename_i inner
    cases h
    rcases closing_cases inner with ⟨body, rest, rfl, first⟩ | runs
    · exact ⟨rest, by simp [closing_block rest first], closing_block rest first ▸ .block rest first⟩
    · exact ⟨[], by simp [closing_unclosed runs], (closing_unclosed runs).symm ▸ .unclosed runs⟩
  · cases h

/-- The item that a text begins with. -/
def item? : List Char → Option Item
  | [] => none
  | c :: cs =>
    match body? (c :: cs) with
    | some body => some (.comment body)
    | none =>
      if c = '\r' ∧ cs.head? = some '\n' then some (.lineBreak ['\r', '\n'])
      else if Text.isLineBreak c then some (.lineBreak [c])
      else if Text.isHorizontalBlank c then some (.blank c)
      else none

theorem body?_eq_none {c : Char} (cs : List Char) (plain : c ≠ '/') : body? (c :: cs) = none := by
  unfold body?
  split
  · rename_i same
    exact absurd (List.cons.inj same).1 plain
  · rename_i same
    exact absurd (List.cons.inj same).1 plain
  · rfl

theorem isLineBreak_ne_slash {c : Char} (ends : Text.isLineBreak c = true) : c ≠ '/' := by
  rintro rfl
  exact absurd ends (by decide)

theorem isHorizontalBlank_ne_slash {c : Char} (blank : Text.isHorizontalBlank c = true) :
    c ≠ '/' := by
  rintro rfl
  exact absurd blank (by decide)

theorem item?_of_stands {item : Item} {rest : List Char} (stands : item.Stands rest) :
    item? (item.text ++ rest) = some item := by
  cases item with
  | comment body =>
    have read := body?_of_stands stands
    simp only [Item.text]
    cases whole : body ++ rest with
    | nil => simp [whole, body?] at read
    | cons c cs => simp [item?, ← whole, read]
  | blank c =>
    cases stands with
    | blank _ runs =>
      have other := Text.isHorizontalBlank_not_isLineBreak runs
      have plain := body?_eq_none rest (isHorizontalBlank_ne_slash runs)
      have single : c ≠ '\r' := by
        rintro rfl
        exact absurd runs (by decide)
      simp [item?, Item.text, plain, other, runs, single]
  | lineBreak text =>
    cases stands with
    | pair => rfl
    | @lineBreak c _ ends single =>
      have plain := body?_eq_none rest (isLineBreak_ne_slash ends)
      have apart : ¬ (c = '\r' ∧ rest.head? = some '\n') := fun h => single h.1 h.2
      simp only [item?, Item.text, List.singleton_append, plain, if_neg apart, ends, if_true]

theorem Item.Stands.unique {item item' : Item} {rest rest' : List Char} (h : item.Stands rest)
    (h' : item'.Stands rest') (same : item.text ++ rest = item'.text ++ rest') :
    item = item' ∧ rest = rest' := by
  have read := item?_of_stands h
  rw [same, item?_of_stands h'] at read
  obtain rfl := Option.some.inj read
  exact ⟨rfl, List.append_cancel_left same⟩

theorem Item.Stands.text_ne_nil {item : Item} {rest : List Char} (stands : item.Stands rest) :
    item.text ≠ [] := by
  cases stands <;> simp [text]

/-! ## Runs of trivia -/

namespace Trivia

variable {cs rest rest' : List Char} {items items' : List Item}

theorem split (run : Trivia cs items rest) : cs = items.flatMap Item.text ++ rest := by
  induction run with
  | none => rfl
  | cons stands more ih => simp [← ih]

theorem unique (run : Trivia cs items rest) (run' : Trivia cs items' rest') :
    items = items' ∧ rest = rest' := by
  induction run generalizing items' with
  | none ends =>
    cases run' with
    | none => exact ⟨rfl, rfl⟩
    | cons stands => exact absurd stands (ends _ _ rfl)
  | @cons item items behind rest stands more ih =>
    generalize whole : item.text ++ behind = cs at run'
    cases run' with
    | none ends => exact absurd stands (ends item behind whole.symm)
    | cons stands' more' =>
      obtain ⟨rfl, rfl⟩ := stands.unique stands' whole
      obtain ⟨rfl, rfl⟩ := ih more'
      exact ⟨rfl, rfl⟩

end Trivia

theorem exists_trivia (cs : List Char) : ∃ items rest, Trivia cs items rest := by
  induction size : cs.length using Nat.strongRecOn generalizing cs with
  | ind n ih =>
    by_cases begins : ∃ (item : Item) (rest : List Char), cs = item.text ++ rest ∧ item.Stands rest
    · obtain ⟨item, behind, rfl, stands⟩ := begins
      have full := List.length_pos_iff.mpr stands.text_ne_nil
      simp only [List.length_append] at size
      obtain ⟨items, rest, more⟩ := ih behind.length (by omega) behind rfl
      exact ⟨item :: items, rest, .cons stands more⟩
    · exact ⟨[], cs, .none fun item rest whole stands => begins ⟨item, rest, whole, stands⟩⟩

/-! ## The comments of a run -/

def Item.isLineBreak : Item → Bool
  | lineBreak _ => true
  | _ => false

def Item.isComment : Item → Bool
  | comment _ => true
  | _ => false

/-- The comments of a run of trivia from an offset that count: all of them, or those behind a line
break. -/
def ranges : Nat → Bool → List Item → List Char → List Range
  | _, _, [], _ => []
  | start, counts, item :: items, rest =>
    let stop := start + Text.bytes item.text
    let later := ranges stop (counts || item.isLineBreak) items rest
    if counts && item.isComment then
      ⟨start, stop, breaksLine (items.flatMap Item.text ++ rest)⟩ :: later
    else later

theorem mem_ranges_cons {start : Nat} {counts : Bool} {item : Item} {items : List Item}
    {rest : List Char} {r : Range} :
    r ∈ ranges start counts (item :: items) rest ↔
      (counts = true ∧ item.isComment = true ∧
        r = ⟨start, start + Text.bytes item.text,
          breaksLine (items.flatMap Item.text ++ rest)⟩) ∨
      r ∈ ranges (start + Text.bytes item.text) (counts || item.isLineBreak) items rest := by
  cases counts <;> cases comment : item.isComment <;> simp [ranges, comment]

theorem isLineBreak_iff (item : Item) : item.isLineBreak = true ↔ ∃ text, item = .lineBreak text := by
  cases item <;> simp [Item.isLineBreak]

theorem isComment_iff (item : Item) : item.isComment = true ↔ ∃ text, item = .comment text := by
  cases item <;> simp [Item.isComment]

theorem mem_ranges_iff {start : Nat} {counts : Bool} {items : List Item} {rest : List Char}
    {r : Range} :
    r ∈ ranges start counts items rest ↔
      ∃ before body after, items = before ++ .comment body :: after ∧
        (counts = true ∨ ∃ text, .lineBreak text ∈ before) ∧
        r = ⟨start + Text.bytes (before.flatMap Item.text),
          start + Text.bytes (before.flatMap Item.text ++ body),
          breaksLine (after.flatMap Item.text ++ rest)⟩ := by
  induction items generalizing start counts with
  | nil => simp [ranges]
  | cons item items ih =>
    rw [mem_ranges_cons, ih]
    constructor
    · rintro (⟨counted, comment, rfl⟩ | ⟨before, body, after, rfl, counted, rfl⟩)
      · obtain ⟨body, rfl⟩ := (isComment_iff item).mp comment
        exact ⟨[], body, items, rfl, Or.inl counted, by simp [Item.text, Text.bytes]⟩
      · refine ⟨item :: before, body, after, rfl, ?_, by simp [Text.bytes_append, Nat.add_assoc]⟩
        rcases counted with counted | ⟨text, mem⟩
        · rcases Bool.or_eq_true_iff.mp counted with counted | ends
          · exact Or.inl counted
          · obtain ⟨text, rfl⟩ := (isLineBreak_iff item).mp ends
            exact Or.inr ⟨text, List.mem_cons_self⟩
        · exact Or.inr ⟨text, List.mem_cons_of_mem item mem⟩
    · rintro ⟨before, body, after, split, counted, rfl⟩
      cases before with
      | nil =>
        obtain ⟨rfl, rfl⟩ := List.cons.inj split
        exact Or.inl ⟨by simpa using counted, rfl, by simp [Item.text, Text.bytes]⟩
      | cons first before =>
        obtain ⟨rfl, rfl⟩ := List.cons.inj split
        refine Or.inr ⟨before, body, after, rfl, ?_, by simp [Text.bytes_append, Nat.add_assoc]⟩
        rcases counted with counted | ⟨text, mem⟩
        · exact Or.inl (by simp [counted])
        · rcases List.mem_cons.mp mem with rfl | mem
          · exact Or.inl (by simp [Item.isLineBreak])
          · exact Or.inr ⟨text, mem⟩

theorem start_le_of_mem_ranges {start : Nat} {counts : Bool} {items : List Item}
    {rest : List Char} {r : Range} (mem : r ∈ ranges start counts items rest) : start ≤ r.start := by
  obtain ⟨before, body, after, -, -, rfl⟩ := mem_ranges_iff.mp mem
  exact Nat.le_add_right ..

theorem stop_le_of_mem_ranges {start : Nat} {counts : Bool} {items : List Item} {rest : List Char}
    {r : Range} (mem : r ∈ ranges start counts items rest) :
    r.stop ≤ start + Text.bytes (items.flatMap Item.text) := by
  obtain ⟨before, body, after, rfl, -, rfl⟩ := mem_ranges_iff.mp mem
  simp only [List.flatMap_append, List.flatMap_cons, Text.bytes_append, Item.text]
  omega

theorem pairwise_ranges (start : Nat) (counts : Bool) (items : List Item) (rest : List Char) :
    (ranges start counts items rest).Pairwise (·.stop ≤ ·.start) := by
  induction items generalizing start counts with
  | nil => exact .nil
  | cons item items ih =>
    simp only [ranges]
    split
    · exact .cons (fun r mem => start_le_of_mem_ranges mem) (ih _ _)
    · exact ih _ _

/-! ## Scanning a run -/

theorem ends_of_no_item {c : Char} {cs : List Char}
    (ends : ∀ (item : Item) (rest : List Char), c :: cs = item.text ++ rest → ¬ item.Stands rest) :
    body? (c :: cs) = none ∧ Text.isLineBreak c = false ∧ Text.isHorizontalBlank c = false := by
  refine ⟨?_, ?_, ?_⟩
  · cases comment : body? (c :: cs) with
    | none => rfl
    | some body =>
      obtain ⟨rest, whole, stands⟩ := stands_of_body? comment
      exact absurd stands (ends _ rest whole)
  · rw [Bool.eq_false_iff]
    intro lineBreak
    by_cases pair : c = '\r' ∧ cs.head? = some '\n'
    · obtain ⟨rfl, feed⟩ := pair
      obtain ⟨rest, rfl⟩ := List.head?_eq_some_iff.mp feed
      exact ends (.lineBreak ['\r', '\n']) rest rfl (.pair rest)
    · exact ends (.lineBreak [c]) cs rfl (.lineBreak lineBreak fun h h' => pair ⟨h, h'⟩)
  · rw [Bool.eq_false_iff]
    exact fun blank => ends (.blank c) cs rfl (.blank cs blank)

theorem scan_lineBreak {c : Char} (ends : Text.isLineBreak c = true) (pos : Nat) (p : Pending)
    (cs : List Char) : scan .gap pos p (c :: cs) = scan .gap (pos + c.utf8Size) p.lineBreak cs := by
  rw [scan_gap_cons (body?_eq_none cs (isLineBreak_ne_slash ends)), if_pos ends]

theorem lineBreak_lineBreak (p : Pending) : p.lineBreak.lineBreak = p.lineBreak := by
  simp [Pending.lineBreak, Function.comp_def]

theorem settle_open {cs : List Char} (runs : breaksLine cs = false) (r : Option Range) :
    r.map (·.settle cs) = r := by
  cases r <;> simp [Range.settle, runs]

theorem settle_lineBreak {c : Char} (ends : Text.isLineBreak c = true) (cs cs' : List Char)
    (p : Pending) : p.lineBreak.last.map (·.settle cs') = p.last.map (·.settle (c :: cs)) := by
  cases last : p.last <;> simp [Pending.lineBreak, Range.settle, last, breaksLine_lineBreak cs ends]

/-- The state behind an item that begins at an offset. -/
def Pending.pass (p : Pending) (pos : Nat) : Item → Pending
  | .lineBreak _ => p.lineBreak
  | .blank _ => p
  | .comment body => p.comment pos (pos + Text.bytes body) false

theorem Pending.Sound.pass {p : Pending} (sound : p.Sound) (pos : Nat) (item : Item) :
    (p.pass pos item).Sound := by
  cases item with
  | lineBreak _ => exact .lineBreak p
  | blank _ => exact sound
  | comment _ => exact sound.comment ..

/-- An item is passed as a whole, and a comment settles the one before it. -/
theorem scan_item {item : Item} {behind : List Char} (stands : item.Stands behind) (pos : Nat)
    (p : Pending) :
    scan .gap pos p (item.text ++ behind) = (if item.isComment then p.settled else []) ++
      scan .gap (pos + Text.bytes item.text) (p.pass pos item) behind := by
  cases item with
  | comment body =>
    simp [Item.text, scan_comment (body?_of_stands stands), Item.isComment, Pending.pass]
  | blank c =>
    cases stands with
    | blank _ blank =>
      have plain := body?_eq_none behind (isHorizontalBlank_ne_slash blank)
      have runs := Text.isHorizontalBlank_not_isLineBreak blank
      simp [Item.text, scan_gap_cons plain, runs, blank, Item.isComment, Pending.pass, Text.bytes]
  | lineBreak text =>
    cases stands with
    | pair =>
      have first : Text.isLineBreak '\r' = true := rfl
      have second : Text.isLineBreak '\n' = true := rfl
      simp [Item.text, scan_lineBreak first, scan_lineBreak second, lineBreak_lineBreak,
        Item.isComment, Pending.pass, Text.bytes, Nat.add_assoc]
    | lineBreak ends =>
      simp [Item.text, scan_lineBreak ends, Item.isComment, Pending.pass, Text.bytes]

/-- Where no item stands, scanning is over, and no line ends. -/
theorem scan_no_item {cs : List Char}
    (ends : ∀ (item : Item) (rest : List Char), cs = item.text ++ rest → ¬ item.Stands rest)
    (pos : Nat) (p : Pending) :
    scan .gap pos p cs = p.last.toList ∧ breaksLine cs = false := by
  cases cs with
  | nil => exact ⟨rfl, rfl⟩
  | cons c cs =>
    obtain ⟨plain, runs, visible⟩ := ends_of_no_item ends
    simp [scan_gap_cons plain, breaksLine, runs, visible]

/-- Scanning a run of trivia gives the comment that was open before it, and the comments of the run
that count. -/
theorem scan_trivia {cs rest : List Char} {items : List Item} (run : Trivia cs items rest)
    (pos : Nat) (p : Pending) (sound : p.Sound) :
    scan .gap pos p cs =
      (p.last.map (·.settle cs)).toList ++ ranges pos p.collecting items rest := by
  induction run generalizing pos p with
  | none ends =>
    obtain ⟨carried, runs⟩ := scan_no_item ends pos p
    simp [carried, settle_open runs, ranges]
  | @cons item items behind rest stands more ih =>
    rw [scan_item stands, ih _ _ (sound.pass ..)]
    cases item with
    | comment body =>
      have runs := breaksLine_comment (body?_of_stands stands)
      simp only [Item.text, settle_open runs]
      obtain ⟨collecting, last⟩ := p
      cases collecting with
      | true =>
        simp [Pending.pass, Pending.settled, Pending.comment, Range.settle, ranges,
          Item.isComment, Item.isLineBreak, Item.text, ← more.split]
      | false =>
        have none : last = none := by simpa [Pending.Sound] using sound
        simp [Pending.pass, Pending.settled, Pending.comment, ranges, Item.isComment,
          Item.isLineBreak, Item.text, none]
    | blank c =>
      cases stands with
      | blank _ blank =>
        have same : breaksLine (c :: behind) = breaksLine behind := by simp [breaksLine, blank]
        simp [Pending.pass, ranges, Item.isComment, Item.isLineBreak, Item.text, Range.settle,
          same]
    | lineBreak text =>
      have collecting : p.lineBreak.collecting = true := rfl
      cases stands with
      | pair =>
        have first : Text.isLineBreak '\r' = true := rfl
        simp [Pending.pass, collecting, settle_lineBreak first ('\n' :: behind), ranges,
          Item.isComment, Item.isLineBreak, Item.text]
      | lineBreak ends =>
        simp [Pending.pass, collecting, settle_lineBreak ends behind, ranges, Item.isComment,
          Item.isLineBreak, Item.text]

/-! ## Scanning from an offset -/

/-- What is passed over before scanning from an offset: an interpreter line at the start of the
text. -/
def passedOver (pos : Nat) (cs : List Char) : List Char :=
  if pos = 0 ∧ startsInterpreterLine cs = true then lineText cs else []

theorem startsInterpreterLine_iff {cs : List Char} :
    startsInterpreterLine cs = true ↔ ∃ rest, cs = '#' :: '!' :: rest := by
  constructor
  · intro starts
    unfold startsInterpreterLine at starts
    split at starts
    · exact ⟨_, rfl⟩
    · cases starts
  · rintro ⟨rest, rfl⟩
    rfl

theorem passedOver_append (pos : Nat) (cs : List Char) :
    passedOver pos cs ++ cs.drop (passedOver pos cs).length = cs := by
  unfold passedOver
  split
  · exact List.prefix_iff_eq_append.mp (lineText_begins cs)
  · rfl

theorem leading_eq_scan (front cs : List Char) :
    leading (front ++ cs) (Text.bytes front) =
      scan .gap (Text.bytes (front ++ passedOver (Text.bytes front) cs))
        ⟨decide (Text.bytes front = 0), none⟩
        (cs.drop (passedOver (Text.bytes front) cs).length) := by
  by_cases start : Text.bytes front = 0
  · obtain rfl := (Text.bytes_eq_zero_iff front).mp start
    cases opens : startsInterpreterLine cs <;> simp [leading, passedOver, opens, Text.bytes, lineText]
  · have line : passedOver (Text.bytes front) cs = [] := by simp [passedOver, start]
    simp [leading, start, line, Text.dropBytes_append]

theorem leading_eq_ranges {front line behind rest : List Char} {items : List Item}
    (passed : passedOver (Text.bytes front) (line ++ behind) = line)
    (run : Trivia behind items rest) :
    leading (front ++ (line ++ behind)) (Text.bytes front) =
      ranges (Text.bytes (front ++ line)) (decide (Text.bytes front = 0)) items rest := by
  rw [leading_eq_scan, passed, List.drop_left, scan_trivia run _ _ (Or.inr rfl)]
  rfl

theorem exists_passedOver (pos : Nat) (cs : List Char) :
    ∃ line behind, cs = line ++ behind ∧ passedOver pos (line ++ behind) = line :=
  ⟨passedOver pos cs, _, (passedOver_append pos cs).symm, by rw [passedOver_append]⟩

/-- From an offset between two characters there is one run of trivia, and the comments found are
those of its comments that stand behind a line break of the run, or anywhere in it at the start of
the text, in order. Elsewhere there are none. -/
theorem leading_trivia (text : List Char) (pos : Nat) :
    (∀ front cs, text = front ++ cs → Text.bytes front = pos →
      ∃ line items rest, line = passedOver pos cs ∧
        text = front ++ line ++ items.flatMap Item.text ++ rest ∧
        Trivia (cs.drop line.length) items rest ∧
        (∀ items' rest', Trivia (cs.drop line.length) items' rest' →
          items' = items ∧ rest' = rest) ∧
        (∀ r, r ∈ leading text pos ↔
          ∃ before body after, items = before ++ .comment body :: after ∧
            (pos = 0 ∨ ∃ t, .lineBreak t ∈ before) ∧
            r = ⟨Text.bytes (front ++ line ++ before.flatMap Item.text),
              Text.bytes (front ++ line ++ before.flatMap Item.text ++ body),
              breaksLine (after.flatMap Item.text ++ rest)⟩) ∧
        (leading text pos).Pairwise (·.stop ≤ ·.start)) ∧
    ((∀ front cs, text = front ++ cs → Text.bytes front ≠ pos) → leading text pos = []) := by
  constructor
  · rintro front cs rfl rfl
    obtain ⟨items, rest, run⟩ := exists_trivia (cs.drop (passedOver (Text.bytes front) cs).length)
    have found := scan_trivia run (Text.bytes (front ++ passedOver (Text.bytes front) cs))
      ⟨decide (Text.bytes front = 0), none⟩ (Or.inr rfl)
    rw [← leading_eq_scan] at found
    refine ⟨_, items, rest, rfl, ?_, run, ?_, ?_, ?_⟩
    · rw [List.append_assoc, ← run.split, List.append_assoc, passedOver_append]
    · intro items' rest' run'
      exact run'.unique run
    · intro r
      simp only [found, Option.map_none, Option.toList_none, List.nil_append, mem_ranges_iff,
        decide_eq_true_eq, Text.bytes_append, Nat.add_assoc]
    · rw [found]
      exact pairwise_ranges ..
  · intro apart
    unfold leading
    split
    · rename_i start
      exact absurd start.symm (apart [] text rfl)
    · split
      · rename_i rest behind
        obtain ⟨front, whole, size⟩ := (Text.dropBytes_eq_some_iff _ _ _).mp behind
        exact absurd size (apart front rest whole)
      · rfl

def twoComments : List Char := "a; // z\r\n// one\n /* x */ b".toList

theorem leading_twoComments :
    leading twoComments 2 = [⟨9, 15, true⟩, ⟨17, 24, false⟩] ∧ leading twoComments 100 = [] ∧
      ∃ items rest, twoComments = "a;".toList ++ [] ++ items.flatMap Item.text ++ rest ∧
        Trivia (twoComments.drop 2) items rest ∧
        (∀ items' rest', Trivia (twoComments.drop 2) items' rest' → items' = items ∧ rest' = rest) ∧
        (∀ r, r ∈ leading twoComments 2 ↔
          ∃ before body after, items = before ++ .comment body :: after ∧
            (2 = 0 ∨ ∃ t, .lineBreak t ∈ before) ∧
            r = ⟨Text.bytes ("a;".toList ++ [] ++ before.flatMap Item.text),
              Text.bytes ("a;".toList ++ [] ++ before.flatMap Item.text ++ body),
              breaksLine (after.flatMap Item.text ++ rest)⟩) ∧
        (leading twoComments 2).Pairwise (·.stop ≤ ·.start) := by
  have beyond : ∀ front cs, twoComments = front ++ cs → Text.bytes front ≠ 100 := by
    intro front cs whole size
    have total : Text.bytes twoComments = 26 := by decide
    rw [whole, Text.bytes_append, size] at total
    omega
  obtain ⟨line, items, rest, line_eq, facts⟩ :=
    (leading_trivia twoComments 2).1 "a;".toList (twoComments.drop 2) rfl rfl
  obtain rfl : line = [] := line_eq
  exact ⟨by decide, (leading_trivia twoComments 100).2 beyond, items, rest, facts⟩

end Dartify.Comment
