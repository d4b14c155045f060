import BoardBlob.CommandLine.Run
import BoardBlob.Proofs.AtomicOutput
import BoardBlob.Proofs.CompiledView

/-!
# Checking without writing

Checking a board and compiling it go the same way up to the blob: the file is read, its text is
parsed, and the devices are compiled (`boardBlob`). What stops one on this way stops the other, with
the same report. Only then does compiling write the blob, and checking print its size
(`check_agrees_with_compile`).
-/
namespace BoardBlob

namespace Disk

variable {disk : Disk (StateM FileTree)} {tree : FileTree} {board : String} {config : Config}
  {devices : List Device} {blob : Blob}

/-- Reading a file leaves the tree as it is. -/
def ReadsOnly (disk : Disk (StateM FileTree)) : Prop :=
  ∀ path tree, (disk.readFile path tree).2 = tree

/-- Reading a file of a file tree leaves the tree as it is. -/
theorem readsOnly_disk : FileTree.disk.ReadsOnly := fun _ _ => rfl

/-- The devices of a board file, from what reading the file gives. -/
def fileDevices (path : String) : Except FileFault (List UInt8) → Except Failure (List Device)
  | .error fault => .error (.file path fault)
  | .ok bytes =>
    match Utf8.text? bytes with
    | none => .error (.file path .notText)
    | some text => parseBoard text

/-- Loading a board is reading its file. -/
theorem loadBoard_eq (disk : Disk (StateM FileTree)) (path : String) (tree : FileTree) :
    disk.loadBoard path tree =
      (fileDevices path (disk.readFile path tree).1, (disk.readFile path tree).2) := by
  rw [loadBoard, run_bind]
  obtain ⟨found, after⟩ := disk.readFile path tree
  cases found with
  | error fault => rfl
  | ok bytes =>
    simp only [fileDevices]
    cases Utf8.text? bytes <;> rfl

/-- The devices and the blob of a board file, or why it has none, in the words of the program. -/
def boardBlob (disk : Disk (StateM FileTree)) (board : String) (config : Config)
    (tree : FileTree) : Except String (List Device × Blob) :=
  match fileDevices board (disk.readFile board tree).1 with
  | .error failure => .error (CommandLine.failedTo "load board" board failure.text)
  | .ok devices =>
    match compile devices config with
    | .error fault =>
      .error (CommandLine.failedTo "compile" board (Failure.compile fault).text)
    | .ok blob => .ok (devices, blob)

/-- A board file is text, the text describes the devices, and the devices have the blob. -/
def HasBlob (disk : Disk (StateM FileTree)) (board : String) (config : Config) (tree : FileTree)
    (devices : List Device) (blob : Blob) : Prop :=
  ∃ bytes text, (disk.readFile board tree).1 = .ok bytes ∧ Utf8.text? bytes = some text ∧
    parseBoard text = .ok devices ∧ compile devices config = .ok blob

/-- A board has a blob when each of the steps that lead to it succeeds. -/
theorem boardBlob_eq_ok_iff :
    disk.boardBlob board config tree = .ok (devices, blob) ↔
      disk.HasBlob board config tree devices blob := by
  constructor
  · intro found
    rw [boardBlob] at found
    cases read : (disk.readFile board tree).1 with
    | error fault => simp [read, fileDevices] at found
    | ok bytes =>
      cases valid : Utf8.text? bytes with
      | none => simp [read, fileDevices, valid] at found
      | some text =>
        cases parsed : parseBoard text with
        | error failure => simp [read, fileDevices, valid, parsed] at found
        | ok listed =>
          cases compiled : compile listed config with
          | error fault => simp [read, fileDevices, valid, parsed, compiled] at found
          | ok made =>
            simp only [read, fileDevices, valid, parsed, compiled, Except.ok.injEq,
              Prod.mk.injEq] at found
            obtain ⟨rfl, rfl⟩ := found
            exact ⟨bytes, text, read, valid, parsed, compiled⟩
  · rintro ⟨bytes, text, read, valid, parsed, compiled⟩
    simp only [boardBlob, read, fileDevices, valid, parsed, compiled]

end Disk

namespace CommandLine

open Disk (HasBlob ReadsOnly boardBlob boardBlob_eq_ok_iff)

variable {disk : Disk (StateM FileTree)} {tree after : FileTree} {board output reason : String}
  {config : Config} {devices : List Device} {blob : Blob}

/-! ## The two reports -/

namespace Work

/-- A board without a blob is reported with its reason, by a check and by a compilation alike, and
neither changes anything. -/
theorem reports_of_boardBlob_error (quiet : disk.ReadsOnly)
    (stopped : boardBlob disk board config tree = .error reason) (output : String) :
    ∃ report : Report, report.failure = some reason ∧
      runCheck disk board config tree = (report, tree) ∧
      runCompile disk board output config tree = (report, tree) := by
  rw [boardBlob] at stopped
  have unchanged := quiet board tree
  rw [runCheck, runCompile, Disk.run_bind, Disk.run_bind, Disk.loadBoard_eq, unchanged]
  cases loaded : Disk.fileDevices board (disk.readFile board tree).1 with
  | error failure =>
    simp only [loaded, Except.error.injEq] at stopped
    exact ⟨notLoaded board failure, congrArg some stopped, rfl, rfl⟩
  | ok devices =>
    simp only [loaded] at stopped
    cases compiled : BoardBlob.compile devices config with
    | ok blob => simp [compiled] at stopped
    | error fault =>
      simp only [compiled, Except.error.injEq] at stopped
      refine ⟨{ notices := compileNotices devices config, failure := some reason }, rfl, ?_, ?_⟩
      · simp only [compiled, stopped]
        rfl
      · simp only [Disk.run_bind, Disk.compileToFile_of_fault disk output tree compiled, stopped]
        rfl

/-- A board with a blob passes a check, which prints its size and changes nothing. -/
theorem runCheck_of_hasBlob (quiet : disk.ReadsOnly)
    (has : disk.HasBlob board config tree devices blob) :
    runCheck disk board config tree =
      ({ notices := compileNotices devices config, output := checkedLine board devices blob },
        tree) := by
  obtain ⟨bytes, text, read, valid, parsed, compiled⟩ := has
  rw [runCheck, Disk.run_bind, Disk.loadBoard_eq, quiet board tree]
  simp only [read, Disk.fileDevices, valid, parsed, compiled]
  rfl

/-- A board with a blob is compiled as far as the blob can be written. -/
theorem runCompile_of_hasBlob (quiet : disk.ReadsOnly)
    (has : disk.HasBlob board config tree devices blob) :
    ((runCompile disk board output config tree).1.failure = none ↔
      (disk.replaceFile output blob.bytes tree).1 = .ok ()) ∧
    (runCompile disk board output config tree).2 =
      (disk.replaceFile output blob.bytes tree).2 := by
  obtain ⟨bytes, text, read, valid, parsed, compiled⟩ := has
  rw [runCompile, Disk.run_bind, Disk.loadBoard_eq, quiet board tree]
  simp only [read, Disk.fileDevices, valid, parsed, Disk.run_bind]
  cases written : disk.replaceFile output blob.bytes tree with
  | mk result after =>
    cases result with
    | error failure =>
      rw [Disk.compileToFile_of_failure compiled written]
      exact ⟨iff_of_false (Option.some_ne_none (failedTo "compile" board failure.text)) (by simp),
        rfl⟩
    | ok done =>
      rw [Disk.compileToFile_of_done compiled written]
      exact ⟨iff_of_true rfl rfl, rfl⟩

end Work

/-! ## The two runs -/

/-- A run does the work that is asked for and tells how it ended. -/
theorem run_eq {arguments : List String} {request : Request}
    (asked : parse arguments = .ok request) (disk : Disk (StateM FileTree)) (tree : FileTree) :
    run disk arguments tree =
      ((request.work.run disk tree).1.outcome request.level, (request.work.run disk tree).2) := by
  simp only [run, asked]
  rfl

/-- A run ends with 0 when its work did not fail. -/
theorem Report.code_eq_zero_iff (report : Report) (level : Level) :
    (report.outcome level).code = 0 ↔ report.failure = none := by
  rw [Report.outcome]
  cases report.failure <;> simp

/-- A run that did its work ends with 0 or with 1. -/
theorem Report.code_eq_zero_or_one (report : Report) (level : Level) :
    (report.outcome level).code = 0 ∨ (report.outcome level).code = 1 := by
  rw [Report.outcome]
  cases report.failure <;> simp

/-- What a run prints does not depend on whether its work failed. -/
theorem Report.output_outcome (report : Report) (level : Level) :
    (report.outcome level).output = report.output := by
  rw [Report.outcome]
  cases report.failure <;> rfl

/-- A run whose work failed ends with 1, and its last line says why. -/
theorem Report.outcome_of_failure {report : Report} (failed : report.failure = some reason)
    (level : Level) : (report.outcome level).code = 1 ∧
      (report.outcome level).messages.getLast? = some ("error: " ++ reason) := by
  simp [Report.outcome, failed]

section Runs

variable {checking compiling : List String} {asked ordered : Request}

/-- A check of a board without a blob and a compilation of it change nothing, end with 1, and say
why in one line that is the same. All that they tell is the same at the same level of detail. -/
theorem runs_of_boardBlob_error (quiet : disk.ReadsOnly) (check : parse checking = .ok asked)
    (checks : asked.work = .check board config) (compile : parse compiling = .ok ordered)
    (compiles : ordered.work = .compile board output config)
    (stopped : boardBlob disk board config tree = .error reason) :
    ∃ first second : Outcome, run disk checking tree = (first, tree) ∧
      run disk compiling tree = (second, tree) ∧ first.code = 1 ∧ second.code = 1 ∧
      first.messages.getLast? = some ("error: " ++ reason) ∧
      second.messages.getLast? = some ("error: " ++ reason) ∧
      (asked.level = ordered.level → second = first) := by
  obtain ⟨report, failed, checked, compiled⟩ :=
    Work.reports_of_boardBlob_error quiet stopped output
  obtain ⟨codeAsked, lastAsked⟩ := Report.outcome_of_failure failed asked.level
  obtain ⟨codeOrdered, lastOrdered⟩ := Report.outcome_of_failure failed ordered.level
  refine ⟨report.outcome asked.level, report.outcome ordered.level, ?_, ?_, codeAsked, codeOrdered,
    lastAsked, lastOrdered, fun same => by rw [same]⟩
  · rw [run_eq check, checks, Work.run, checked]
  · rw [run_eq compile, compiles, Work.run, compiled]

/-- A check of a board with a blob changes nothing, ends with 0 and prints the size of the blob. -/
theorem run_check_of_hasBlob (quiet : disk.ReadsOnly) (check : parse checking = .ok asked)
    (checks : asked.work = .check board config)
    (has : disk.HasBlob board config tree devices blob) :
    ∃ outcome : Outcome, run disk checking tree = (outcome, tree) ∧ outcome.code = 0 ∧
      outcome.output = Work.checkedLine board devices blob := by
  refine ⟨_, by rw [run_eq check, checks, Work.run, Work.runCheck_of_hasBlob quiet has], ?_, rfl⟩
  rw [Report.code_eq_zero_iff]

/-- A compilation of a board with a blob ends with 0 exactly when the blob can be written, and
changes what writing it changes. -/
theorem run_compile_of_hasBlob (quiet : disk.ReadsOnly) (compile : parse compiling = .ok ordered)
    (compiles : ordered.work = .compile board output config)
    (has : disk.HasBlob board config tree devices blob) :
    ((run disk compiling tree).1.code = 0 ↔
      (disk.replaceFile output blob.bytes tree).1 = .ok ()) ∧
    (run disk compiling tree).2 = (disk.replaceFile output blob.bytes tree).2 := by
  rw [run_eq compile, compiles, Work.run, Report.code_eq_zero_iff]
  exact Work.runCompile_of_hasBlob quiet has

/-- A compilation that ends with 0 leaves the blob of the board in the output file, and the blob
holds the devices of the board. -/
theorem written_of_run_compile (fallible : disk.Fallible) (quiet : disk.ReadsOnly)
    (compile : parse compiling = .ok ordered)
    (compiles : ordered.work = .compile board output config)
    (done : (run disk compiling tree).1.code = 0) :
    ∃ devices blob, disk.HasBlob board config tree devices blob ∧
      (run disk compiling tree).2.readFile output = .ok blob.bytes ∧
      decompile blob.bytes = .ok devices := by
  cases found : disk.boardBlob board config tree with
  | error reason =>
    obtain ⟨report, failed, _, compiled⟩ := Work.reports_of_boardBlob_error quiet found output
    rw [run_eq compile, compiles, Work.run, compiled] at done
    obtain ⟨code, _⟩ := Report.outcome_of_failure failed ordered.level
    exact absurd (code.symm.trans done) (by decide)
  | ok made =>
    obtain ⟨devices, blob⟩ := made
    have has := boardBlob_eq_ok_iff.mp found
    obtain ⟨written, changed⟩ := run_compile_of_hasBlob quiet compile compiles has
    refine ⟨devices, blob, has, ?_, ?_⟩
    · obtain ⟨failure, failed⟩ | ⟨place, replaced, receives⟩ :=
        fallible.replaceFile_cases output blob.bytes tree
      · rw [written, failed] at done
        contradiction
      · rw [changed, replaced]
        exact receives.readFile_put
    · obtain ⟨_, _, _, _, _, compiled⟩ := has
      obtain ⟨stages, bytes⟩ := compile_eq_ok_iff.mp compiled
      rw [bytes]
      exact stages.decompile_eq

end Runs

/-- A check and a compilation of one board with one configuration, on a disk that may fail and from
one tree. The check changes nothing, and ends with 0 exactly when the board file is text, the text
describes devices, and these have a blob. The compilation ends with 0 exactly when the check does
and the blob can be written; the output file then holds as many bytes, and as many devices, as the
check prints. When the check ends with 1, so does the compilation: it changes nothing either, ends
with the same line, and tells the same all in all to a reader who asks for the same detail. -/
theorem check_agrees_with_compile {disk : Disk (StateM FileTree)} (fallible : disk.Fallible)
    (quiet : disk.ReadsOnly) {checking compiling : List String} {asked ordered : Request}
    {board output : String} {config : Config} (check : parse checking = .ok asked)
    (checks : asked.work = .check board config) (compile : parse compiling = .ok ordered)
    (compiles : ordered.work = .compile board output config) (tree : FileTree) :
    (run disk checking tree).2 = tree ∧
    ((run disk checking tree).1.code = 0 ∨ (run disk checking tree).1.code = 1) ∧
    ((run disk checking tree).1.code = 0 ↔
      ∃ bytes text devices blob, (disk.readFile board tree).1 = .ok bytes ∧
        Utf8.text? bytes = some text ∧ parseBoard text = .ok devices ∧
        BoardBlob.compile devices config = .ok blob) ∧
    ((run disk compiling tree).1.code = 0 ↔
      (run disk checking tree).1.code = 0 ∧
        ∀ devices blob, disk.HasBlob board config tree devices blob →
          (disk.replaceFile output blob.bytes tree).1 = .ok ()) ∧
    ((run disk compiling tree).1.code = 0 →
      ∃ devices blob, disk.HasBlob board config tree devices blob ∧
        (run disk checking tree).1.output = board ++ ": " ++ devices.length.repr ++
          " devices, " ++ blob.bytes.length.repr ++ " bytes\n" ∧
        (run disk compiling tree).2.readFile output = .ok blob.bytes ∧
        decompile blob.bytes = .ok devices) ∧
    ((run disk checking tree).1.code = 1 →
      (run disk compiling tree).1.code = 1 ∧ (run disk compiling tree).2 = tree ∧
        (∃ reason,
          (run disk checking tree).1.messages.getLast? = some ("error: " ++ reason) ∧
          (run disk compiling tree).1.messages.getLast? = some ("error: " ++ reason)) ∧
        (asked.level = ordered.level →
          (run disk compiling tree).1 = (run disk checking tree).1)) := by
  cases found : disk.boardBlob board config tree with
  | error reason =>
    have none : ∀ devices blob, ¬disk.HasBlob board config tree devices blob := by
      intro devices blob has
      rw [boardBlob_eq_ok_iff.mpr has] at found
      contradiction
    obtain ⟨first, second, checked, compiled, codeFirst, codeSecond, lastFirst, lastSecond, same⟩ :=
      runs_of_boardBlob_error quiet check checks compile compiles found
    rw [checked, compiled]
    refine ⟨rfl, Or.inr codeFirst, iff_of_false (by simp [codeFirst]) ?_,
      iff_of_false (by simp [codeSecond]) (by simp [codeFirst]), by simp [codeSecond],
      fun _ => ⟨codeSecond, rfl, ⟨reason, lastFirst, lastSecond⟩, same⟩⟩
    rintro ⟨bytes, text, devices, blob, has⟩
    exact none devices blob ⟨bytes, text, has⟩
  | ok made =>
    obtain ⟨devices, blob⟩ := made
    have has := boardBlob_eq_ok_iff.mp found
    have only : ∀ listed other, disk.HasBlob board config tree listed other →
        listed = devices ∧ other = blob := by
      intro listed other another
      rw [boardBlob_eq_ok_iff.mpr another] at found
      exact Prod.mk.inj (Except.ok.inj found)
    obtain ⟨outcome, checked, code, printed⟩ := run_check_of_hasBlob quiet check checks has
    obtain ⟨written, _⟩ := run_compile_of_hasBlob quiet compile compiles has
    rw [checked]
    refine ⟨rfl, Or.inl code, iff_of_true code ?_, ?_, fun done => ?_, by simp [code]⟩
    · obtain ⟨bytes, text, steps⟩ := has
      exact ⟨bytes, text, devices, blob, steps⟩
    · rw [written]
      constructor
      · intro done
        refine ⟨code, fun listed other another => ?_⟩
        rw [(only listed other another).2]
        exact done
      · exact fun both => both.2 devices blob has
    · obtain ⟨listed, made, another, read, again⟩ :=
        written_of_run_compile fallible quiet compile compiles done
      obtain ⟨rfl, rfl⟩ := only listed made another
      exact ⟨listed, made, has, printed, read, again⟩

/-- A tree of one board file, with one device. -/
def boardTree : FileTree :=
  ⟨[(["b"], .file (Utf8.bytes
    "\x7b\"devices\": [\x7b\"name\": \"u\", \"type\": \"RTC\"\x7d]\x7d"))], []⟩

/-- The board passes a check, and is compiled to a file of the size that the check prints. Of a
board that is missing, both say the same. -/
theorem check_agrees_with_compile_boardTree :
    (∃ blob, (run FileTree.disk ["check", "b"] boardTree).1.output = "b: 1 devices, 98 bytes\n" ∧
      blob.length = 98 ∧
      (run FileTree.disk ["compile", "b", "-o", "out"] boardTree).2.readFile "out" = .ok blob) ∧
    ∃ reason,
      (run FileTree.disk ["check", "c"] boardTree).1.messages.getLast? =
        some ("error: " ++ reason) ∧
      (run FileTree.disk ["compile", "c", "-o", "out"] boardTree).1.messages.getLast? =
        some ("error: " ++ reason) := by
  have check : parse ["check", "b"] =
      .ok { verbosity := 0, quiet := false, work := .check "b" {} } := by decide +kernel
  have compile : parse ["compile", "b", "-o", "out"] =
      .ok { verbosity := 0, quiet := false, work := .compile "b" "out" {} } := by decide +kernel
  have checkMissing : parse ["check", "c"] =
      .ok { verbosity := 0, quiet := false, work := .check "c" {} } := by decide +kernel
  have compileMissing : parse ["compile", "c", "-o", "out"] =
      .ok { verbosity := 0, quiet := false, work := .compile "c" "out" {} } := by decide +kernel
  refine ⟨?room, ?missing⟩
  case room =>
    obtain ⟨_, _, _, _, done, _⟩ := check_agrees_with_compile Disk.fallible_disk
      Disk.readsOnly_disk check rfl compile rfl boardTree
    obtain ⟨devices, blob, _, printed, read, _⟩ := done (by decide +kernel)
    have line : (run FileTree.disk ["check", "b"] boardTree).1.output =
        "b: 1 devices, 98 bytes\n" := by decide +kernel
    have size : ((run FileTree.disk ["compile", "b", "-o", "out"] boardTree).2.readFile
        "out").toOption.map List.length = some 98 := by decide +kernel
    rw [read] at size
    exact ⟨blob.bytes, line, Option.some.inj size, read⟩
  case missing =>
    obtain ⟨_, _, _, _, _, stopped⟩ := check_agrees_with_compile Disk.fallible_disk
      Disk.readsOnly_disk checkMissing rfl compileMissing rfl boardTree
    exact (stopped (by decide +kernel)).2.2.1

end CommandLine

end BoardBlob
