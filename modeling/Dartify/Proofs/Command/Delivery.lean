import Dartify.Command.Run
import Dartify.Proofs.Files.Writing
import Dartify.Proofs.Program.Filewise

/-! Where a run leaves the translation. All files are loaded and translated before anything is
written, so that a run ends in one of four ways. Main statement: a run succeeds exactly if all files
are translated and the translation can be written; then it goes to one place and nothing else
changes, and otherwise nothing is left at all. -/
namespace Dartify.Command

open Program

variable {v : Volume} {env : Environment} {arguments files : List String} {text : String}

/-! ## How a run ends -/

/-- What translating files comes to and leaves, whatever it tells. -/
inductive Ending (v : Volume) (env : Environment) (files : List String) : Outcome × Volume → Prop
  | untranslated {cause : Failure} {messages : List String}
      (fails : (Program.translate v.host (files.map .ofText)).1 = .error cause) :
      Ending v env files (failed messages, v)
  | shown {text : String} {messages : List String}
      (done : (Program.translate v.host (files.map .ofText)).1 = .ok text)
      (sink : env.settings.outputPath = none) : Ending v env files (success text messages, v)
  | unwritable {text path : String} {fault : FileFault} {messages : List String}
      (done : (Program.translate v.host (files.map .ofText)).1 = .ok text)
      (sink : env.settings.outputPath = some path) (fails : v.write path text = .error fault) :
      Ending v env files (failed messages, v)
  | written {text path : String} {after : Volume} {messages : List String}
      (done : (Program.translate v.host (files.map .ofText)).1 = .ok text)
      (sink : env.settings.outputPath = some path) (written : v.write path text = .ok after) :
      Ending v env files (success "" messages, after)

/-- A translation is all that a run puts out, or all that it writes. -/
inductive Delivered (v : Volume) (text : String) : Option String → String → Volume → Prop
  | shown : Delivered v text none text v
  | stored {path : String} {after : Volume} (stored : v.Stored path text after) :
      Delivered v text (some path) "" after
  | swallowed {path : String} (led : v.find (.ofText path) = .ok (.device .void)) :
      Delivered v text (some path) "" v
  | printed {path : String} (led : v.find (.ofText path) = .ok (.device .output)) :
      Delivered v text (some path) text (v.send .output text)

theorem delivered_of_write (fresh : v.printed = "") {path : String} {after : Volume}
    (written : v.write path text = .ok after) :
    Delivered v text (some path) after.printed after := by
  rcases Volume.write_ok written with stored | ⟨device, led, rfl⟩
  · rw [stored.printed, fresh]
    exact .stored stored
  · cases device with
    | void =>
      have silent : (v.send .void text).printed = "" := fresh
      rw [silent]
      exact .swallowed led
    | output =>
      have whole : (v.send .output text).printed = text := by simp [Volume.send, fresh]
      rw [whole]
      exact .printed led

/-! ## What makes a run fail -/

/-- Something that stands in the way of a translation. -/
inductive Obstacle (v : Volume) (env : Environment) (files : List String) : Prop
  | root {before after : List String} {root : String} {fault : FileFault}
      (split : files = before ++ root :: after)
      (source : (Path.ofText root).normalize.isDeclaration = false)
      (unreadable : v.read (Path.ofText root).normalize = .error fault)
      (apart : ¬ LeadsTo v.host (before.map .ofText) (Path.ofText root).normalize) :
      Obstacle v env files
  | file {path : Path} {text : String} {failure : Failure}
      (reached : Reached v.host (files.map .ofText) path) (source : path.isDeclaration = false)
      (answer : v.host.read path = .ok text)
      (fails : translateText path.render text = .error failure) : Obstacle v env files
  | output {path text : String} {fault : FileFault} (sink : env.settings.outputPath = some path)
      (fails : v.write path text = .error fault) : Obstacle v env files

/-- All files are translated, and the translation can be written. -/
def Succeeds (v : Volume) (env : Environment) (files : List String) : Prop :=
  ∃ text, Yields v.host files text ∧
    ∀ path, env.settings.outputPath = some path → ∃ after, v.write path text = .ok after

theorem host_read_error {p : Path} {fault : FileFault} (fails : v.read p = .error fault) :
    v.host.read p = .error fault := by
  simp [Volume.host, fails]

theorem translateText_ok {host : Host} {p : Program} {outs : List String}
    (loaded : (load host (files.map .ofText)).1 = .ok p)
    (each : p.files.map dartOf = outs.map .ok) {path : Path}
    (reached : Reached host (files.map .ofText) path) (source : path.isDeclaration = false)
    (answer : host.read path = .ok text) : ∃ out, translateText path.render text = .ok out := by
  have closure := isClosure_of_load loaded
  have listed := (closure.mem_paths_iff path).mpr ⟨reached, source, text, answer⟩
  obtain ⟨file, mem, rfl⟩ := List.mem_map.mp listed
  obtain ⟨text', answer', parsed⟩ := closure.parsed file mem
  obtain rfl : text' = text := by simpa [answer] using answer'.symm
  have written : dartOf file ∈ outs.map .ok := each ▸ List.mem_map_of_mem mem
  obtain ⟨out, -, dart⟩ := List.mem_map.mp written
  exact ⟨out, (translateText_of_read parsed).trans dart.symm⟩

theorem Obstacle.not_succeeds (obstacle : Obstacle v env files) : ¬ Succeeds v env files := by
  rintro ⟨text, ⟨p, outs, loaded, each, -⟩, writable⟩
  cases obstacle with
  | root split source unreadable apart =>
    rw [split, List.map_append, List.map_cons] at loaded
    rcases root_loadable loaded with loadable | led
    · exact not_loadable_iff.mpr ⟨source, _, host_read_error unreadable⟩ loadable
    · exact apart led
  | file reached source answer fails =>
    obtain ⟨out, dart⟩ := translateText_ok loaded each reached source answer
    cases fails.symm.trans dart
  | output sink fails =>
    obtain ⟨after, written⟩ := writable _ sink
    cases (Volume.write_fault fails text).symm.trans written

theorem Ending.outcome (fresh : v.printed = "") {o : Outcome} {after : Volume}
    (ending : Ending v env files (o, after)) :
    (Succeeds v env files ∧ o.status = 0 ∧ ∃ text, Yields v.host files text ∧
      Delivered v text env.settings.outputPath (after.printed ++ o.output) after) ∨
    (¬ Succeeds v env files ∧ o.status = 1 ∧ after.printed ++ o.output = "" ∧ after = v) := by
  cases ending with
  | untranslated fails =>
    right
    refine ⟨?_, rfl, by simp [failed, fresh], rfl⟩
    rintro ⟨text, yields, -⟩
    cases fails.symm.trans (translate_eq_ok_iff.mpr yields)
  | @shown text _ done sink =>
    left
    have yields := translate_eq_ok_iff.mp done
    refine ⟨⟨text, yields, by simp [sink]⟩, rfl, text, yields, ?_⟩
    simpa [sink, success, fresh] using Delivered.shown
  | unwritable done sink fails =>
    right
    exact ⟨(Obstacle.output sink fails).not_succeeds, rfl, by simp [failed, fresh], rfl⟩
  | @written text path after _ done sink written =>
    left
    have yields := translate_eq_ok_iff.mp done
    refine ⟨⟨text, yields, ?_⟩, rfl, text, yields, ?_⟩
    · intro other same
      obtain rfl : path = other := by simpa [sink] using same
      exact ⟨after, written⟩
    · simpa [sink, success] using delivered_of_write fresh written

/-- A directory with one file. -/
def site : Volume := .ofEntries [(.ofText "a.ts", .file "var a;\n".toUTF8)]

end Dartify.Command
