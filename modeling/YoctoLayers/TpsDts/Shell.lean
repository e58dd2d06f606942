import YoctoLayers.Lib.Keeps

/-! What the scripts of `tps-dts` need of the shell: file names, `sed` on them, and a script as a
program that may exit at any point. -/
namespace YoctoLayers.TpsDts

abbrev Name := List Char

abbrev Bytes := List UInt8

/-- The regular files. -/
abbrev Files := Name → Option Bytes

/-- What `$(...)` takes of an output: all but the newlines at its end. -/
def substitute (s : Name) : Name := (s.reverse.dropWhile (· = '\n')).reverse

/-- `echo s | sed -e ...`, where `f` is the command on one line. -/
def sed (f : Name → Name) (s : Name) : Name :=
  substitute (['\n'].intercalate ((s.splitOn '\n').map f))

/-- `s/.*\.//` -/
def afterLastDot (s : Name) : Name := (s.reverse.takeWhile (· ≠ '.')).reverse

/-- `s/word//` for a word without special characters: its first occurrence goes. -/
def eraseFirst (word : Name) : Name → Name
  | [] => []
  | c :: s => if word.isPrefixOf (c :: s) then (c :: s).drop word.length else c :: eraseFirst word s

def basename (s : Name) : Name :=
  ((s.reverse.dropWhile (· = '/')).takeWhile (· ≠ '/')).reverse

/-- The words into which the shell splits an expansion that is not quoted. -/
def fields (s : Name) : List Name :=
  (s.splitOnP fun c => c = ' ' || c = '\t' || c = '\n').filter (· ≠ [])

/-- The external programs that the scripts check. `dtcCheck` is `dtc -I dtb`, `ddZero` the `dd` from
`/dev/zero`. -/
inductive Tool
  | ini2dts
  | mcpp
  | dtc
  | dtcCheck
  | flashErase
  | nandwrite
  | ddZero
  | dd
deriving DecidableEq, Repr

structure Shell where
  files : Files
  /-- The device-tree partition. -/
  part : Bytes
  /-- The DTB that `dtc -I dtb` has read last. -/
  checked : Option Bytes
  /-- The external programs that have run, with their exit statuses. -/
  ran : List (Tool × ℕ)
  out : List String

/-- A script; `exit` throws the exit status. -/
abbrev Sh := EStateM ℕ Shell

namespace Sh

def exit {α : Type} (status : ℕ) : Sh α := throw status

def echo (line : String) : Sh Unit := modify fun sh => { sh with out := sh.out ++ [line] }

/-- `[ -f name ]` -/
def isFile (name : Name) : Sh Bool := return ((← get).files name).isSome

/-- A message and `exit 1`. -/
def fail {α : Type} (line : String) : Sh α := do
  echo line
  exit 1

/-- `if [ $? -ne 0 ]` with a message and `exit 1`. -/
def orFail (status : ℕ) (line : String) : Sh Unit := if status = 0 then pure () else fail line

/-- An `if` without an `else`. -/
def when (c : Bool) (x : Sh Unit) : Sh Unit := if c then x else pure ()

/-- One external program: its exit status and what it changes. -/
def call (tool : Tool) (f : Shell → ℕ × Shell) : Sh ℕ :=
  modifyGet fun sh =>
    let (status, sh') := f sh
    (status, { sh' with ran := sh.ran ++ [(tool, status)] })

/-- The exit status of a script and what it leaves. -/
def run (x : Sh Unit) (sh : Shell) : ℕ × Shell :=
  match x sh with
  | .ok _ sh' => (0, sh')
  | .error status sh' => (status, sh')

theorem run_spec {x : Sh Unit} {P : Shell → Prop} {Q : ℕ → Shell → Prop}
    (hx : Lib.Ensures P x (fun _ => Q 0) Q) {sh : Shell} (hsh : P sh) :
    Q (run x sh).1 (run x sh).2 := by
  have hspec := Lib.ensures_iff.mp hx sh hsh
  unfold run
  revert hspec
  cases x sh with
  | ok _ sh' => exact fun h => h
  | error status sh' => exact fun h => h

end Sh
end YoctoLayers.TpsDts
