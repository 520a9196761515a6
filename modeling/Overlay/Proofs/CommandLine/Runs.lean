import Overlay.CommandLine.Run
import Overlay.Proofs.Acts
import Overlay.Proofs.Fields

/-!
# Runs of the programs

Both programs load a project, compile its script and read this back before they write anything.  A
project that cannot be loaded, compiled or read back leaves all files as they are, and so does a run that
is only to look at the script.  A run that does its work hands over the script of the project file, which
depends neither on the program nor on its options: to the standard output, or to a single file.

## Main definitions
- `Folder.Adds`: a folder where one file is new or has a new text
- `Project.scriptOf?`: the script of a project file
- `CommandLine.Program.target`: where a script goes
- `CommandLine.Program.Finishes`: what a program may do to the files

## Main statements
- `Folder.write_ends`: a text that is written
- `Project.perform_ofFile`: another file for the script does not change the project
- `CommandLine.compiler_finishes`, `CommandLine.exporter_finishes`: what the programs do with a project
- `CommandLine.run_finishes`: all runs
-/

namespace Overlay

open Act

/-! ## Section 1: Folders -/

namespace Folder

/-- A file with a text is new or has a new text, and all other files are those of before. -/
def Adds (before : Folder) (path text : String) (after : Folder) : Prop :=
  ∀ route, after.file? route
    = if route = routeOf path.toList then some ⟨route, text.toUTF8⟩ else before.file? route

theorem route_of_file? {f : Folder} {route : Route} {x : StoredFile} (h : f.file? route = some x) :
    x.route = route := by
  rw [file?] at h
  simpa using List.find?_some h

/-- Where bytes are put, they are found, and elsewhere is found what was there before. -/
theorem file?_store (f : Folder) (route : Route) (bytes : ByteArray) (other : Route) :
    (f.store route bytes).file? other
      = if other = route then some ⟨other, bytes⟩ else f.file? other := by
  unfold store
  split
  · next hthere =>
    -- the file keeps its place among the others
    have hkeeps : ((fun x : StoredFile => decide (x.route = other)) ∘ fun x : StoredFile =>
        if x.route = route then ⟨route, bytes⟩ else x) = fun x => decide (x.route = other) := by
      funext x
      by_cases hx : x.route = route
      · simp [hx]
      · simp [hx]
    rw [file?, List.find?_map, hkeeps, ← file?]
    cases hfile : f.file? other with
    | none =>
      split
      · next heq =>
        rw [← heq, hfile] at hthere
        cases hthere
      · rfl
    | some x =>
      rw [Option.map_some, route_of_file? hfile]
      split
      · next heq => rw [heq]
      · rfl
  · next hfree =>
    have hnone : f.file? route = none := by simpa using hfree
    rw [file?, List.find?_append, ← file?, List.find?_singleton]
    by_cases heq : other = route
    · simp [heq, hnone]
    · simp [heq, Ne.symm heq]

/-- Writing leaves the text in its file, or stops. -/
theorem write_ends (path text : String) (f : Folder) :
    (write path text).Ends f (fun _ => True) fun _ f' => f.Adds path text f' := by
  have hparents : (makeParents path).Ends f (fun _ => True) fun _ f' => f'.files = f.files := by
    unfold makeParents
    extract_lets parent route
    refine .bind_get ?_
    extract_lets make check
    split
    · exact Ends.bind_throw (e := fun _ => True) trivial
    · unfold check
      split
      · exact Ends.bind_throw (e := fun _ => True) trivial
      · exact .of_set rfl
  unfold write
  refine hparents.bind fun _ f' hfiles => .bind_get ?_
  extract_lets chars route put check
  split
  · exact Ends.bind_throw (e := fun _ => True) trivial
  · unfold check
    split
    · exact Ends.bind_throw (e := fun _ => True) trivial
    · refine .of_set fun other => ?_
      rw [file?_store]
      rw [file?, hfiles]
      rfl

end Folder

/-! ## Section 2: Project files -/

namespace Project

variable {σ : Type} {data override : Value} {p : Project}

/-- A project whose script goes to another file, if one is given. -/
def redirected (override : Value) (p : Project) : Project :=
  if override.isNone then p else { p with outputFile := override }

theorem compile_redirected (override : Value) (p : Project) :
    (p.redirected override).compile = p.compile := by
  unfold redirected
  split <;> rfl

theorem validate_redirected (override : Value) (p : Project) :
    (p.redirected override).validate = p.validate := by
  rw [validate, compile_redirected, ← validate]

theorem readOutput_eq (v override : Value) :
    readOutput v override
      = (readOutput v .none).map fun file => if override.isNone then file else override := by
  unfold readOutput
  cases v <;> cases override <;> rfl

/-- The loader looks at the other file at its end only. -/
theorem perform_load (data override : Value) (p : Project) (w : Surroundings) :
    (load data override).perform p w
      = match (load data .none).perform p w with
        | (.ok _, q, v) => (.ok (), q.redirected override, v)
        | end_ => end_ := by
  unfold load
  simp only [perform_bind, perform_ofResult]
  rcases checkData data with fault | fs
  · rfl
  dsimp only
  generalize (loadResources (Fields.get fs "resources")).perform p w = resources
  rcases resources with ⟨fault | _, p, w⟩
  · rfl
  dsimp only
  generalize (loadTimeline (Fields.get fs "timeline")).perform p w = timeline
  rcases timeline with ⟨fault | _, p, w⟩
  · rfl
  dsimp only
  rcases readPlayback (Fields.get fs "playback") with fault | playback
  · rfl
  dsimp only
  rw [readOutput_eq _ override]
  rcases readOutput (Fields.get fs "output") .none with fault | file
  · rfl
  · simp only [Except.map, perform_modify, redirected]
    split <;> rfl

/-- Another file for the script does not change the project otherwise, and loading it leaves everything
around it as it is. -/
theorem perform_ofData (data override : Value) (s : σ) (w : Surroundings) :
    (ofData data override : Act σ Project).perform s w
      = (((ofData data .none : Act Unit Project).perform () w).1.map (redirected override), s,
        ((ofData data .none : Act Unit Project).perform () w).2.2) := by
  have hperform : ∀ {τ : Type} (t : τ) (file : Value), (ofData data file : Act τ Project).perform t w
      = (((load data file).perform empty w).1.map fun _ => ((load data file).perform empty w).2.1, t,
        ((load data file).perform empty w).2.2) :=
    fun _ _ => rfl
  rw [hperform, hperform, perform_load data override]
  generalize (load data .none).perform empty w = end_
  obtain ⟨fault | _, p, v⟩ := end_
  · rfl
  · rfl

/-- What a project file describes. -/
def dataOf? (bytes : ByteArray) : Option Value :=
  (String.fromUTF8? bytes).bind fun text => (Yaml.read (plainLineEnds text.toList)).toOption

theorem exists_bytes_of_readData {folder : Folder} {path : String}
    (h : readData folder path = .ok data) :
    ∃ bytes, folder.read path = .ok bytes ∧ dataOf? bytes = some data := by
  unfold readData at h
  obtain ⟨bytes, hbytes, h⟩ := bind_eq_ok.mp h
  extract_lets read at h
  split at h
  · cases h
  obtain ⟨text, htext, h⟩ := bind_eq_ok.mp h
  obtain ⟨v, hv, h⟩ := bind_eq_ok.mp h
  have hdict : v = data := by
    split at h
    · exact Except.ok.inj h
    · cases h
  refine ⟨bytes, hbytes, ?_⟩
  rw [dataOf?, orFault_eq_ok.mp htext, Option.bind_some, hv, ← hdict]
  rfl

/-- The project of a project file. -/
def ofBytes? (bytes : ByteArray) (w : Surroundings) : Option Project :=
  (dataOf? bytes).bind fun data => ((ofData data .none : Act Unit Project).perform () w).1.toOption

/-- The script of a project file: it is made of its bytes and of the ids that are drawn where there are
none. -/
def scriptOf? (bytes : ByteArray) (w : Surroundings) : Option (List Char) :=
  (ofBytes? bytes w).bind fun p => p.compile.toOption

theorem perform_ofFile (folder : Folder) (path : String) (override : Value) (s : σ) (w : Surroundings) :
    ∃ v, (ofFile folder path override : Act σ Project).perform s w
      = (((ofFile folder path .none : Act Unit Project).perform () w).1.map (redirected override), s, v) := by
  unfold ofFile
  simp only [perform_bind, perform_ofResult]
  rcases readData folder path with fault | data
  · exact ⟨_, rfl⟩
  · exact ⟨_, perform_ofData data override s w⟩

theorem exists_bytes_of_ofFile {folder : Folder} {path : String} {w : Surroundings}
    (h : ((ofFile folder path .none : Act Unit Project).perform () w).1 = .ok p) :
    ∃ bytes, folder.read path = .ok bytes ∧ ofBytes? bytes w = some p := by
  unfold ofFile at h
  rw [perform_bind, perform_ofResult] at h
  cases hdata : readData folder path with
  | error fault =>
    rw [hdata] at h
    cases h
  | ok data =>
    rw [hdata] at h
    obtain ⟨bytes, hbytes, hdescribed⟩ := exists_bytes_of_readData hdata
    exact ⟨bytes, hbytes, by rw [ofBytes?, hdescribed, Option.bind_some]; exact toOption_eq_some.mpr h⟩

/-- A project is written to its file, or to another one. -/
theorem writeScript_ends (p : Project) (file : Value) (f : Folder) :
    (writeScript p file).Ends f (fun _ => True) fun path f' => ∃ script, p.compile = .ok script
      ∧ (if file.holds then file else p.outputFile) = .text path
      ∧ f.Adds path (String.ofList script) f' := by
  unfold writeScript
  extract_lets target write
  split
  · exact .bind_stop trivial
  unfold write
  refine .bind_ofResult (fun script hscript => ?_) fun _ _ => trivial
  have hvalue : (if file.holds then file else p.outputFile) = target := rfl
  clear_value target
  split
  · next path _ =>
    refine (Folder.write_ends path _ f).bind fun _ f' hadds => ?_
    exact .of_pure ⟨script, hscript, hvalue, hadds⟩
  · exact Leaves.of_throw (q := Ending (fun _ => True) _) trivial

end Project

namespace CommandLine

/-! ## Section 3: Programs with a project -/

/-- Whether a program is to leave all files as they are. -/
def Program.isDry (program : Program) (s : Settings) : Bool :=
  match program with
  | .compiler => s.dryRun || s.dumpPlan
  | .exporter => false

/-- Where a program hands over the script of a project: in a file, or at the standard output if no file
is named. -/
def Program.target (program : Program) (s : Settings) (p : Project) : Value :=
  match program with
  | .compiler => (p.redirected (settingValue s.output)).outputFile
  | .exporter => Emission.orElse (Emission.orElse (settingValue s.output) p.outputFile)
    (.text (defaultOutput (s.yaml.getD "")))

/-- A text is all that has been printed, where no file is named for it, or else it is in that file and no
other file has changed. -/
def Desk.Receives (before : Folder) (target : Value) (text : String) (after : Desk) : Prop :=
  match target with
  | .none => after.folder = before ∧ after.console.out = text
  | v => ∃ path, v = .text path ∧ before.Adds path text after.folder

/-- The project of a run; the file that the settings name is left aside. -/
def loaded (folder : Folder) (s : Settings) (w : Surroundings) : Result Project :=
  ((Project.ofFile folder (s.yaml.getD "") .none : Act Unit Project).perform () w).1

/-- What a program leaves: nothing is touched if it is only to look at the script, or if the project cannot
be loaded or its script cannot be made and read back.  What is handed over is the script of the project
file. -/
structure Program.Finishes (program : Program) (s : Settings) (before : Folder) (w : Surroundings)
    (r : Result Unit) (after : Desk) : Prop where
  dry : program.isDry s = true → after.folder = before
  unchecked : (loaded before s w >>= Project.validate).isOk = false → after.folder = before
  done : r = .ok () → program.isDry s = false → ∃ bytes p script,
    before.read (s.yaml.getD "") = .ok bytes ∧ Project.ofBytes? bytes w = some p
      ∧ Project.scriptOf? bytes w = some script ∧ (Script.parse script).isOk = true
      ∧ Desk.Receives before (program.target s p) (String.ofList script) after

variable {s : Settings} {p : Project} {d : Desk} {program : Program} {w : Surroundings}

/-- A program goes on with the project of a file, or stops without a change. -/
theorem open_finishes {override : Value} {f : Project → Act Desk Unit} {q : Result Unit → Desk → Prop}
    (hfault : ∀ fault, q (.error fault) d)
    (hproject : ∀ p, loaded d.folder s w = .ok p → (f (p.redirected override)).Leaves d q) :
    q ((openProject (s.yaml.getD "") override >>= f).perform d w).1
      ((openProject (s.yaml.getD "") override >>= f).perform d w).2.1 := by
  obtain ⟨v, hv⟩ := Project.perform_ofFile d.folder (s.yaml.getD "") override d w
  have hopen : (openProject (s.yaml.getD "") override).perform d w
      = ((loaded d.folder s w).map (Project.redirected override), d, v) :=
    hv
  rw [perform_bind, hopen]
  cases hloaded : loaded d.folder s w with
  | error fault => exact hfault fault
  | ok p => exact hproject p hloaded v

namespace Program.Finishes

variable {before : Folder} {r : Result Unit} {after : Desk} {fault : Fault}

theorem of_fault (h : after.folder = before) : program.Finishes s before w (.error fault) after :=
  ⟨fun _ => h, fun _ => h, fun hr => nomatch hr⟩

theorem of_dry (h : after.folder = before) (hdry : program.isDry s = true) :
    program.Finishes s before w r after := by
  refine ⟨fun _ => h, fun _ => h, fun _ hwrites => ?_⟩
  rw [hdry] at hwrites
  cases hwrites

/-- A script that has been read back is handed over. -/
theorem of_receives {script : List Char} {parsed : Script} (hloaded : loaded before s w = .ok p)
    (hcompile : p.compile = .ok script) (hparse : Script.parse script = .ok parsed)
    (hdry : program.isDry s = false)
    (h : r = .ok () → Desk.Receives before (program.target s p) (String.ofList script) after) :
    program.Finishes s before w r after := by
  refine ⟨fun hdry' => ?_, fun hunchecked => ?_, fun hr _ => ?_⟩
  · rw [hdry] at hdry'
    cases hdry'
  · rw [hloaded, ok_bind, Project.validate, hcompile, ok_bind, hparse] at hunchecked
    cases hunchecked
  · obtain ⟨bytes, hbytes, hp⟩ := Project.exists_bytes_of_ofFile hloaded
    refine ⟨bytes, p, script, hbytes, hp, ?_, ?_, h hr⟩
    · rw [Project.scriptOf?, hp, Option.bind_some, hcompile]
      rfl
    · rw [hparse]
      rfl

end Program.Finishes

theorem writeScript_ends (p : Project) (file : Value) (d : Desk) :
    (writeScript p file).Ends d (fun _ => True) fun path d' => ∃ script, p.compile = .ok script
      ∧ (if file.holds then file else p.outputFile) = .text path
      ∧ d.folder.Adds path (String.ofList script) d'.folder :=
  .of_on (p.writeScript_ends file d.folder)

/-- A script that has been read back is written to its file, or it is not written at all. -/
theorem writeScript_finishes {q : Project} {file : Value} {script : List Char} {parsed : Script}
    (hloaded : loaded d.folder s w = .ok p) (hcompile : p.compile = .ok script)
    (hparse : Script.parse script = .ok parsed) (hdry : program.isDry s = false)
    (hsame : q.compile = p.compile)
    (htarget : (if file.holds then file else q.outputFile) = program.target s p)
    (g : String → Console → Console) :
    (writeScript q file >>= fun path => modify fun d => { d with console := g path d.console }).Leaves d
      (program.Finishes s d.folder w) := by
  refine Leaves.bind (writeScript_ends q file d) ?_ ?_
  · rintro path d' ⟨script', hscript, hpath, hadds⟩
    obtain rfl := Except.ok.inj (hcompile.symm.trans (hsame ▸ hscript))
    refine .of_modify (.of_receives hloaded hcompile hparse hdry fun _ => ?_)
    rw [← htarget, hpath]
    exact ⟨path, rfl, hadds⟩
  · rintro fault d' -
    exact .of_receives hloaded hcompile hparse hdry fun h => nomatch h

theorem compiler_finishes (s : Settings) (folder : Folder) (w : Surroundings) :
    Program.Finishes .compiler s folder w ((compiler s).perform ⟨folder, .start⟩ w).1
      ((compiler s).perform ⟨folder, .start⟩ w).2.1 := by
  unfold compiler
  rw [perform_bind, perform_modify]
  refine open_finishes (fun fault => .of_fault rfl) fun p hloaded => ?_
  split
  · next hplan =>
    -- the plan is printed before anything has been checked, as far as it can be shown
    dsimp only
    split
    · exact .bind_throw (.of_fault rfl)
    · exact .of_modify (.of_dry rfl (by simp [Program.isDry, hplan]))
  next hplan =>
  rw [Project.validate_redirected]
  refine .bind_ofResult (fun parsed hvalid => ?_) fun fault _ => .of_fault rfl
  split
  · next hdry =>
    exact .of_modify (.of_dry rfl (by simp [Program.isDry, hdry]))
  next hdry =>
  have hwrites : Program.isDry .compiler s = false := by simp [Program.isDry, hplan, hdry]
  -- the script is made a second time now, but of the project that has been checked
  obtain ⟨script, hcompile, hparse⟩ := bind_eq_ok.mp hvalid
  split
  · next hnone =>
    rw [Project.compile_redirected]
    refine .bind_known hcompile (.of_modify (.of_receives hloaded hcompile hparse hwrites fun _ => ?_))
    have htarget : Program.target .compiler s p = .none := (Value.isNone_iff _).mp hnone
    rw [htarget]
    exact ⟨rfl, String.empty_append⟩
  · refine writeScript_finishes (q := p.redirected (settingValue s.output)) hloaded hcompile hparse
      hwrites (Project.compile_redirected _ p) ?_ fun path c => c.note .info (.text ("wrote " ++ path))
    exact if_neg Bool.false_ne_true

/-- A file is named for each script that is exported. -/
theorem holds_target_exporter (s : Settings) (p : Project) :
    (Program.target .exporter s p).holds = true := by
  unfold Program.target
  generalize Emission.orElse (settingValue s.output) p.outputFile = v
  dsimp only [Emission.orElse]
  split
  · next hv => exact hv
  · simp [Value.holds, defaultOutput]

theorem exporter_finishes (s : Settings) (folder : Folder) (w : Surroundings) :
    Program.Finishes .exporter s folder w ((exporter s).perform ⟨folder, .start⟩ w).1
      ((exporter s).perform ⟨folder, .start⟩ w).2.1 := by
  unfold exporter
  extract_lets path
  refine open_finishes (fun fault => .of_fault rfl) fun p hloaded => ?_
  extract_lets file
  refine .bind_ofResult (fun parsed hvalid => ?_) fun fault _ => .of_fault rfl
  obtain ⟨script, hcompile, hparse⟩ := bind_eq_ok.mp hvalid
  exact writeScript_finishes (p := p) hloaded hcompile hparse rfl rfl
    (if_pos (holds_target_exporter s p)) fun written c => c.print ("wrote " ++ written ++ "\n")

/-! ## Section 4: Command lines -/

/-- How a run ends whose program answers or stops. -/
def Ending.of : Result Unit → Desk → Ending
  | .ok _, d => .done d
  | .error fault, d => .failed fault d

/-- A script that cannot be read back never comes into a file: whatever the command line asks for, a run
touches no file before the script has been made and read back, and then a single one at most.  A command
line that cannot be understood, or that asks for help, does nothing to the files. -/
theorem run_finishes (program : Program) (arguments : List String) (folder : Folder) (w : Surroundings) :
    match parse program.options arguments with
    | .settings s => ∃ r after, run program arguments folder w = .of r after
      ∧ program.Finishes s folder w r after
    | _ => ∃ code, run program arguments folder w = .exit code := by
  unfold run
  cases parse program.options arguments with
  | help => exact ⟨0, rfl⟩
  | misuse => exact ⟨2, rfl⟩
  | settings s =>
    have hfinishes : program.Finishes s folder w ((program.act s).perform ⟨folder, .start⟩ w).1
        ((program.act s).perform ⟨folder, .start⟩ w).2.1 := by
      cases program with
      | compiler => exact compiler_finishes s folder w
      | exporter => exact exporter_finishes s folder w
    refine ⟨_, _, ?_, hfinishes⟩
    dsimp only
    generalize (program.act s).perform ⟨folder, .start⟩ w = end_
    obtain ⟨fault | _, d, v⟩ := end_
    · rfl
    · rfl

/-- A folder with a project of a single clip and with an older script. -/
def sampleFolder : Folder :=
  Folder.ofTexts [("p.yaml", "danmu: 1\nresources:\n- id: r\n  type: text\n  content: hi\n"
    ++ "timeline:\n  tracks:\n  - clips:\n    - resource: r\n      id: c\n"), ("old.bas", "")]

/-- The script of the project is exported to a folder that is not there yet. -/
theorem run_finishes_sample :
    ∃ d, run .exporter ["-y", "p.yaml", "--out=new/p.bas"] sampleFolder default = .done d
      ∧ (d.folder.file? (Folder.routeOf "new/p.bas".toList)).isSome = true
      ∧ Program.Finishes .exporter ⟨some "p.yaml", some "new/p.bas", false, false, false⟩ sampleFolder
        default (.ok ()) d := by
  have hdone : (match run .exporter ["-y", "p.yaml", "--out=new/p.bas"] sampleFolder default with
      | .done d => (d.folder.file? (Folder.routeOf "new/p.bas".toList)).isSome
      | _ => false) = true := by
    decide +kernel
  have hparse : parse Program.exporter.options ["-y", "p.yaml", "--out=new/p.bas"]
      = .settings ⟨some "p.yaml", some "new/p.bas", false, false, false⟩ := by
    decide +kernel
  have hfinishes := run_finishes .exporter ["-y", "p.yaml", "--out=new/p.bas"] sampleFolder default
  rw [hparse] at hfinishes
  obtain ⟨r, d, hrun, hfinishes⟩ := hfinishes
  rw [hrun] at hdone
  cases r with
  | error fault => cases hdone
  | ok _ => exact ⟨d, hrun, hdone, hfinishes⟩

end CommandLine

end Overlay
