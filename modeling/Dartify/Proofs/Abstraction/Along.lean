import Dartify.Abstraction.Basic

/-! Where the nodes of a sketch stand. In preorder they begin at tokens of the concrete tree that
the sketch was read from, in the order of these: several nodes may begin at one token, as a node and
its first part do, and tokens at which none begins are passed over. -/
namespace Dartify

open Syntax

/-- The end of a text as a token, behind the last token and the trivia that follows it. -/
def Syntax.Token.atEnd (behind : Place) (rest : List Char) : Token := ⟨behind, rest, .endOfText, ""⟩

namespace Site

/-- A site begins at a token, which is no stretch of a template. -/
structure StandsOn (site : Site) (t : Token) : Prop where
  whole : t.kind ≠ .template
  start : site.start = t.start.offset
  fullStart : site.fullStart = t.behind.offset
  line : site.line = t.start.line
  column : site.column = t.start.column

/-- A site begins at the first of some tokens. -/
def Opens (site : Site) (ts : List Token) : Prop := ∃ t ∈ ts.head?, site.StandsOn t

theorem Opens.append {site : Site} {ts : List Token} (opens : site.Opens ts) (ts' : List Token) :
    site.Opens (ts ++ ts') := by
  obtain ⟨t, first, stands⟩ := opens
  rw [Option.mem_def] at first
  exact ⟨t, by rw [List.head?_append, first]; rfl, stands⟩

/-- It does not matter where a site ends. -/
theorem Opens.upTo {site : Site} {ts : List Token} (opens : site.Opens ts) (stop : Nat) :
    { site with stop := stop }.Opens ts := by
  obtain ⟨t, first, stands⟩ := opens
  exact ⟨t, first, stands.whole, stands.start, stands.fullStart, stands.line, stands.column⟩

end Site

/-- Sites begin at some tokens, in the order of these. -/
inductive Along : List Token → List Site → Prop
  | done (ts : List Token) : Along ts []
  | pass {t : Token} {ts : List Token} {sites : List Site} (later : Along ts sites) :
      Along (t :: ts) sites
  | here {t : Token} {ts : List Token} {site : Site} {sites : List Site} (stands : site.StandsOn t)
      (more : Along (t :: ts) sites) : Along (t :: ts) (site :: sites)

namespace Along

variable {ts ts' : List Token} {sites sites' : List Site} {site : Site}

/-- A site at the first token stands in front of all others. -/
theorem headed (opens : site.Opens ts) (along : Along ts sites) : Along ts (site :: sites) := by
  obtain ⟨t, first, stands⟩ := opens
  cases ts with
  | nil => cases first
  | cons u ts =>
    cases first
    exact .here stands along

theorem weaken (along : Along ts sites) (sub : ts.Sublist ts') : Along ts' sites := by
  induction sub generalizing sites with
  | slnil => exact along
  | cons t sub ih => exact .pass (ih along)
  | @cons_cons ts ts' t sub ih =>
    -- Sites that begin at the common first token come first, and the others are kept behind it.
    generalize same : t :: ts = all at along
    induction along with
    | done => exact .done _
    | pass later =>
      cases same
      exact .pass (ih later)
    | here stands more again =>
      cases same
      exact .here stands (again rfl)

theorem append (along : Along ts sites) (along' : Along ts' sites') :
    Along (ts ++ ts') (sites ++ sites') := by
  induction along with
  | done ts => exact along'.weaken (List.sublist_append_right ts ts')
  | pass later ih => exact .pass ih
  | here stands more ih => exact .here stands ih

theorem exists_of_mem (along : Along ts sites) (mem : site ∈ sites) :
    ∃ t ∈ ts, site.StandsOn t := by
  induction along with
  | done => cases mem
  | pass later ih =>
    obtain ⟨t, known, stands⟩ := ih mem
    exact ⟨t, List.mem_cons_of_mem _ known, stands⟩
  | here stands more ih =>
    rcases List.mem_cons.mp mem with rfl | mem
    · exact ⟨_, List.mem_cons_self, stands⟩
    · exact ih mem

/-- What never decreases from token to token never decreases from site to site. -/
theorem pairwise {f : Token → Nat} {g : Site → Nat}
    (agree : ∀ site t, site.StandsOn t → g site = f t)
    (sorted : ts.Pairwise fun t u => f t ≤ f u) (along : Along ts sites) :
    sites.Pairwise fun a b => g a ≤ g b := by
  induction along with
  | done => exact .nil
  | pass later ih => exact ih (List.pairwise_cons.mp sorted).2
  | here stands more ih =>
    refine List.pairwise_cons.mpr ⟨fun b mem => ?_, ih sorted⟩
    obtain ⟨u, known, stands'⟩ := more.exists_of_mem mem
    rw [agree _ _ stands, agree _ _ stands']
    rcases List.mem_cons.mp known with rfl | known
    · exact Nat.le_refl _
    · exact (List.pairwise_cons.mp sorted).1 u known

end Along

namespace Sketch

mutual

/-- The sites of the nodes of a sketch in preorder. -/
def sites : Sketch → List Site
  | node site _ parts => site :: sitesOf parts

def sitesOf : List Sketch → List Site
  | [] => []
  | s :: ss => sites s ++ sitesOf ss

end

theorem sitesOf_append (ss ts : List Sketch) : sitesOf (ss ++ ts) = sitesOf ss ++ sitesOf ts := by
  induction ss with
  | nil => rfl
  | cons s ss ih => simp [sitesOf, ih]

end Sketch

end Dartify
