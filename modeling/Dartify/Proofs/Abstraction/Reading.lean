import Dartify.Proofs.Abstraction.Renders

/-! What readings that succeed consist of, and what a reading of one part of a construct says, from
which the reading of the construct is put together. -/
namespace Dartify

open Syntax

namespace Sketch

/-! ## Collected parts -/

namespace Filling

variable {α β : Type} (ps : List Sketch)

theorem run_pure (a : α) : (pure a : Filling α) ps = (a, ps) := rfl

theorem run_bind (f : Filling α) (g : α → Filling β) : (f >>= g) ps = g (f ps).1 (f ps).2 := rfl

theorem run_one (part : Sketch) : one part ps = (ps.length, ps ++ [part]) := rfl

theorem run_many (more : List Sketch) :
    many more ps = (List.range' ps.length more.length, ps ++ more) := rfl

theorem run_optional (part : Option Sketch) :
    optional part ps = (part.map fun _ => ps.length, ps ++ part.toList) := by
  cases part with
  | none => simp [optional, run_pure]
  | some part => rfl

theorem run_optionalMany (more : Option (List Sketch)) :
    optionalMany more ps =
      (more.map fun l => List.range' ps.length l.length, ps ++ more.getD []) := by
  cases more with
  | none => simp [optionalMany, run_pure]
  | some more => rfl

theorem toList_range' (part : Option α) (i : Nat) :
    (part.map fun _ => i).toList = List.range' i part.toList.length := by
  cases part <;> rfl

theorem getD_range' (more : Option (List α)) (i : Nat) :
    (more.map fun l => List.range' i l.length).getD [] = List.range' i (more.getD []).length := by
  cases more <;> rfl

theorem range'_join {i j m n : Nat} (next : j = i + m) :
    List.range' i m ++ List.range' j n = List.range' i (m + n) := by
  rw [next, List.range'_append_1]

theorem cons_range' (i : Nat) (ids : List Nat) : i :: ids = List.range' i 1 ++ ids := rfl

/-- A filling collects some parts for a plain kind. -/
structure Collects (f : Filling NodeKind) (ss : List Sketch) : Prop where
  parts : (f []).2 = ss
  numbered : (f []).1.children = List.range ss.length
  plain : (f []).1.isPlain = true

theorem Collects.joins {f : Filling NodeKind} {ss : List Sketch} (h : f.Collects ss) {site : Site}
    {ts : List Token} (opens : site.Opens ts) : (filled site f).Joins ts ss :=
  ⟨site, (f []).1, congrArg (node site _) h.parts, opens, h.numbered, h.plain⟩

end Filling

end Sketch

namespace Abstraction

/-! ## Readings that succeed -/

section

variable {α β : Type}

theorem bind_ok {x : Reading α} {f : α → Reading β} {b : β} (done : x >>= f = .ok b) :
    ∃ a, x = .ok a ∧ f a = .ok b := by
  cases x with
  | error e => cases done
  | ok a => exact ⟨a, rfl, done⟩

theorem lift_ok {o : Option α} {a : α} (done : (liftM o : Reading α) = .ok a) : o = some a := by
  cases o with
  | none => cases done
  | some b => exact congrArg some (Except.ok.inj done)

theorem mapM_ok {f : α → Reading β} {xs : List α} {ys : List β} (done : xs.mapM f = .ok ys) :
    List.Forall₂ (fun x y => f x = .ok y) xs ys := by
  induction xs generalizing ys with
  | nil =>
    cases done
    exact .nil
  | cons x xs ih =>
    rw [List.mapM_cons] at done
    obtain ⟨y, first, done⟩ := bind_ok done
    obtain ⟨rest, more, done⟩ := bind_ok done
    cases done
    exact .cons first (ih more)

theorem exists_mapM_iff {f : α → Reading β} {xs : List α} :
    (∃ ys, xs.mapM f = .ok ys) ↔ ∀ x ∈ xs, ∃ y, f x = .ok y := by
  induction xs with
  | nil => exact ⟨fun _ => nofun, fun _ => ⟨[], rfl⟩⟩
  | cons x xs ih =>
    rw [List.forall_mem_cons, ← ih]
    constructor
    · rintro ⟨ys, done⟩
      rw [List.mapM_cons] at done
      obtain ⟨y, first, done⟩ := bind_ok done
      obtain ⟨rest, more, -⟩ := bind_ok done
      exact ⟨⟨y, first⟩, rest, more⟩
    · rintro ⟨⟨y, first⟩, rest, more⟩
      refine ⟨y :: rest, ?_⟩
      rw [List.mapM_cons, first, more]
      rfl

theorem mapM_option_ok {f : α → Reading β} {o : Option α} {y : Option β}
    (done : o.mapM f = .ok y) :
    List.Forall₂ (fun x y => f x = .ok y) o.toList y.toList := by
  cases o with
  | none =>
    cases done
    exact .nil
  | some x =>
    obtain ⟨a, first, done⟩ := bind_ok done
    cases done
    exact .cons first .nil

/-- A concrete tree stands where its first token stands. -/
theorem site?_opens {c : Concrete} {site : Site} (found : site? c = some site) :
    site.Opens c.tokens := by
  obtain ⟨first, front, found⟩ := Option.bind_eq_some_iff.mp found
  obtain ⟨last, -, found⟩ := Option.bind_eq_some_iff.mp found
  rw [Concrete.first?_eq] at front
  split at found
  · cases found
  · rename_i whole
    cases found
    exact ⟨first, front, whole, rfl, rfl, rfl, rfl⟩

theorem sketch_ok {c : Concrete} {f : Sketch.Filling NodeKind} {s : Sketch}
    (done : sketch c f = .ok s) : ∃ site, site.Opens c.tokens ∧ s = .filled site f := by
  obtain ⟨site, found, done⟩ := bind_ok done
  exact ⟨site, site?_opens (lift_ok found), (Except.ok.inj done).symm⟩

theorem sketch_of_site {c : Concrete} {f : Sketch.Filling NodeKind} {site : Site}
    (stands : site? c = some site) : sketch c f = .ok (.filled site f) := by
  rw [sketch, stands]
  rfl

theorem sketch_joins {c : Concrete} {f : Sketch.Filling NodeKind} {s : Sketch} {ss : List Sketch}
    (done : sketch c f = .ok s) (h : f.Collects ss) : s.Joins c.tokens ss := by
  obtain ⟨site, opens, rfl⟩ := sketch_ok done
  exact h.joins opens

theorem leaf_ok {c : Concrete} {kind : NodeKind} {s : Sketch} (done : leaf c kind = .ok s) :
    ∃ site, site? c = some site ∧ s = .leaf site kind := by
  obtain ⟨site, found, done⟩ := bind_ok done
  exact ⟨site, lift_ok found, (Except.ok.inj done).symm⟩

end

/-! ## Parts -/

/-- What is said of the sketches that a part of a construct is read as. -/
def Part (k : Construct) (c : Concrete) (ss : List Sketch) : Prop :=
  Sketch.Renders c.tokens
    (c.atomsIn (Concrete.either Concrete.isValueless Concrete.isLeftOut) k)
    (c.atomsIn Concrete.isLeftOut k) ss

/-- What is said of the sketches that parts of a construct are read as. -/
def Parts (k : Construct) (cs : List Concrete) (ss : List Sketch) : Prop :=
  Sketch.Renders (Concrete.tokensOf cs)
    (cs.flatMap (Concrete.atomsIn (Concrete.either Concrete.isValueless Concrete.isLeftOut) k))
    (cs.flatMap (Concrete.atomsIn Concrete.isLeftOut k)) ss

variable {c : Concrete} {cs cs' : List Concrete} {j k : Construct} {s : Sketch}
  {ss ss' : List Sketch}

theorem Parts.nil : Parts k [] [] := Sketch.Renders.nil

theorem Parts.cons (h : Part k c ss) (h' : Parts k cs ss') : Parts k (c :: cs) (ss ++ ss') :=
  Sketch.Renders.append h h'

theorem Parts.append (h : Parts k cs ss) (h' : Parts k cs' ss') :
    Parts k (cs ++ cs') (ss ++ ss') := by
  unfold Parts
  rw [List.flatMap_append, List.flatMap_append, Concrete.tokensOf_append]
  exact Sketch.Renders.append h h'

theorem Parts.one (h : Part k c ss) : Parts k [c] ss := by
  simpa using Parts.cons h .nil

/-- What a reader is known to do with every tree of a list, it did with all of them. -/
theorem forall₂_read {related : Concrete → Sketch → Prop} {read : Concrete → Reading Sketch}
    (sound : ∀ c ∈ cs, ∀ s, read c = .ok s → related c s)
    (done : List.Forall₂ (fun c s => read c = .ok s) cs ss) : List.Forall₂ related cs ss := by
  induction done with
  | nil => exact .nil
  | cons first rest ih =>
    exact .cons (sound _ List.mem_cons_self _ first)
      (ih fun c mem => sound c (List.mem_cons_of_mem _ mem))

theorem forall₂_part {read : Concrete → Reading Sketch}
    (sound : ∀ c ∈ cs, ∀ s, read c = .ok s → Part k c [s])
    (done : List.Forall₂ (fun c s => read c = .ok s) cs ss) :
    List.Forall₂ (fun c s => Part k c [s]) cs ss :=
  forall₂_read sound done

theorem Parts.of_forall₂ (parts : List.Forall₂ (fun c s => Part k c [s]) cs ss) :
    Parts k cs ss := by
  induction parts with
  | nil => exact .nil
  | cons first rest ih => exact .cons first ih

/-- A part that holds no values, or is left out, need not be read. -/
theorem Part.skipped
    (skip : Concrete.either Concrete.isValueless Concrete.isLeftOut k c = true) : Part k c [] := by
  refine Sketch.Renders.nil.weaken (.refl _) ?_ (List.nil_sublist _)
  simp [Concrete.atomsIn, skip]

theorem Parts.skipped
    (skip : ∀ c ∈ cs, Concrete.either Concrete.isValueless Concrete.isLeftOut k c = true) :
    Parts k cs [] := by
  induction cs with
  | nil => exact .nil
  | cons c cs ih =>
    exact .cons (.skipped (skip c List.mem_cons_self))
      (ih fun d mem => skip d (List.mem_cons_of_mem _ mem))

theorem skips_typing (known : c.construct? = some j) (typing : j.isTyping = true) :
    Concrete.either Concrete.isValueless Concrete.isLeftOut k c = true := by
  simp [Concrete.either, Concrete.isValueless, known, typing]

theorem skips_decorator (decorator : c.is .decorator = true) :
    Concrete.either Concrete.isValueless Concrete.isLeftOut k c = true := by
  simp [Concrete.either, Concrete.isLeftOut, decorator]

/-- An optional part about types need not be read. -/
theorem Parts.typing {o : Option Concrete} (known : ∀ d, o = some d → d.is j = true)
    (typing : j.isTyping = true) : Parts k o.toList [] := by
  refine .skipped fun d mem => ?_
  exact skips_typing (Concrete.is_iff.mp (known d (Option.mem_toList.mp mem))) typing

/-- Something without a counterpart says nothing of what it stands for. -/
theorem part_unsupported {name : String} (done : unsupported c name = .ok s) : Part k c [s] := by
  obtain ⟨site, found, rfl⟩ := leaf_ok done
  exact Sketch.renders_unsupported (site?_opens found)

theorem part_foreign (done : foreign c = .ok s) : Part k c [s] := by
  obtain ⟨_, -, done⟩ := bind_ok done
  exact part_unsupported done

/-- The atoms of a construct are those of its parts. -/
theorem whole_bounds (known : c.construct? = some j) (free : j.isAtom = false)
    (kept : j ≠ .decorator) (valued : j ≠ .initializer ∨ k ≠ .forInStatement) :
    (c.atomsIn (Concrete.either Concrete.isValueless Concrete.isLeftOut) k).Sublist
        (c.nodes.flatMap
          (Concrete.atomsIn (Concrete.either Concrete.isValueless Concrete.isLeftOut) j)) ∧
      (c.nodes.flatMap (Concrete.atomsIn Concrete.isLeftOut j)).Sublist
        (c.atomsIn Concrete.isLeftOut k) := by
  rw [← Concrete.atoms_eq_flatMap known free, ← Concrete.atoms_eq_flatMap known free]
  refine ⟨Concrete.atomsIn_sublist k c, ?_⟩
  have stays : Concrete.isLeftOut k c = false := by
    rw [Concrete.isLeftOut, Concrete.is_of_construct? known, Concrete.is_of_construct? known]
    rcases valued with valued | valued <;> simp [kept, valued]
  simp [Concrete.atomsIn, stays]

/-- The tokens among the parts hold no atoms. -/
theorem flatMap_parts (skips : Construct → Concrete → Bool) (c : Concrete) :
    c.parts.flatMap (Concrete.atomsIn skips j) = c.nodes.flatMap (Concrete.atomsIn skips j) := by
  rw [Concrete.nodes, ← Concrete.atomsOf_eq]
  induction c.parts with
  | nil => rfl
  | cons d ds ih => rw [List.flatMap_cons, ih, Concrete.atomsOf, Concrete.atomsIn]

/-- What the parts of a construct are read as, tokens included, stands for the construct. -/
theorem Parts.gathered (known : c.construct? = some j) (free : j.isAtom = false)
    (kept : j ≠ .decorator) (valued : j ≠ .initializer ∨ k ≠ .forInStatement)
    (h : Parts j c.parts ss) : Part k c ss := by
  have bounds := whole_bounds known free kept valued
  unfold Parts at h
  rw [flatMap_parts, flatMap_parts] at h
  exact Sketch.Renders.weaken h c.tokensOf_parts_sublist bounds.1 bounds.2

/-- The tokens among the parts need not be read. -/
theorem Parts.all (h : Parts j c.nodes ss) : Parts j c.parts ss := by
  unfold Parts
  rw [flatMap_parts, flatMap_parts]
  exact Sketch.Renders.weaken h (Concrete.tokensOf_sublist List.filter_sublist) (.refl _) (.refl _)

theorem Parts.whole (known : c.construct? = some j) (free : j.isAtom = false)
    (kept : j ≠ .decorator) (valued : j ≠ .initializer ∨ k ≠ .forInStatement)
    (h : Parts j c.nodes ss) : Part k c ss :=
  h.all.gathered known free kept valued

theorem Part.token (t : Token) : Part k (.leaf t) [] := by
  refine Sketch.Renders.nil.weaken (.refl _) ?_ (List.nil_sublist _)
  simp [Concrete.atomsIn, Concrete.atoms]

/-! ## Atoms -/

theorem site?_atom {t : Token} {site : Site} (found : site? (.node k [.leaf t]) = some site) :
    site = ⟨t.start.offset, t.stop.offset, t.behind.offset, t.start.line, t.start.column⟩ := by
  change (if t.kind = .template then none else some _) = some site at found
  split at found
  · cases found
  · exact (Option.some.inj found).symm

theorem text_atom (t : Token) : (Concrete.node k [.leaf t]).text = t.text := by
  simp [Concrete.text, Concrete.tokens, Concrete.tokensOf, Token.spell]

theorem isWord_atom (a : Atom) : a.kind.isWord = true := by
  obtain ⟨construct, t⟩ := a
  cases construct <;> rfl

/-- An atom that becomes a name is spelled as one. -/
theorem isName_atom {a : Atom} (atom : a.construct.isAtom = true)
    (suits : a.token.suits a.construct = true) {text : String} (name : a.kind = .identifier text) :
    Lexical.word text.toList = text.length := by
  have word : a.token.isName = true ∧ a.token.text = text := by
    obtain ⟨construct, t⟩ := a
    cases construct <;> simp_all [Atom.kind, Token.suits, Construct.isAtom]
  rw [← word.2]
  simpa using (Bool.and_eq_true_iff.mp word.1).2

theorem fits_atom {a : Atom} (atom : a.construct.isAtom = true)
    (suits : a.token.suits a.construct = true) : Sketch.Fits a.kind [] := by
  have word := isWord_atom a
  refine ⟨?_, ?_, nofun, ?_, fun text name => isName_atom atom suits name⟩
  · exact NodeKind.children_of_isWord word
  · intro _ _ _ _ shape
    rw [shape] at word
    cases word
  · intro _ _ _ shape
    rw [shape] at word
    cases word

/-- A leaf that says what an atom says stands for it. -/
theorem part_atom (formed : c.WellFormed) (known : c.construct? = some j) (atom : j.isAtom = true)
    {kind : NodeKind} (done : leaf c kind = .ok s)
    (means : ∀ t, c.text = t.text → kind = Atom.kind ⟨j, t⟩) : Part k c [s] := by
  obtain ⟨t, rfl, suits⟩ := formed.atom known atom
  obtain ⟨site, found, rfl⟩ := leaf_ok done
  have same := means t (text_atom t)
  have word : kind.isWord = true := by
    rw [same]
    exact isWord_atom ⟨j, t⟩
  have fits : Sketch.Fits kind [] := by
    rw [same]
    exact fits_atom atom suits
  have whole : Sketch.Renders [t] [⟨j, t⟩] [⟨j, t⟩] [.leaf site kind] := by
    have opens : site.Opens [t] := site?_opens found
    obtain rfl := site?_atom found
    refine ⟨⟨?_, .headed opens (.done _), fun _ => ⟨_, .refl _, .refl _, ?_⟩⟩, ?_⟩
    · intro s mem
      rw [List.mem_singleton.mp mem]
      exact .node fits nofun
    · simp only [Sketch.wordsOf, Sketch.leaf, Sketch.words, word, if_true]
      exact .cons ⟨same, rfl, rfl⟩ .nil
    · intro s mem
      rw [List.mem_singleton.mp mem]
      exact NodeKind.isConstructor_of_isWord word
  have stays : Concrete.isLeftOut k (.node j [.leaf t]) = false := by
    rw [Concrete.isLeftOut, Concrete.is_of_construct? known, Concrete.is_of_construct? known]
    have other : j ≠ .decorator ∧ j ≠ .initializer := by
      constructor <;> (rintro rfl; cases atom)
    simp [other]
  refine whole.weaken (.refl _) ?_ ?_
  · rw [← Concrete.atoms_atom atom t]
    exact Concrete.atomsIn_sublist k _
  · rw [Concrete.atomsIn, if_neg (by simp [stays]), Concrete.atoms_atom atom t]

end Abstraction

end Dartify
