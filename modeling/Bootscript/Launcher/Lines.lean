import Bootscript.Launcher.Settings
import Bootscript.Script.Basic
import Bootscript.Shell.Word

/-! The shell lines that find an interpreter and hand the script to it. Each line is
`"eval" "word" "word" ...`: the shell strips one level of quotes and evaluates the words
as a statement, and Python reads the same line as adjacent string literals. -/
namespace Bootscript.Launcher

/-- The status by which the program reports that the runtime module is missing, which
sends the shell on to the next interpreter. -/
def missingStatus : Nat := 253

def statusText : Text := Nat.toDigits 10 missingStatus

/-- The lines of the Python program that runs the script. `$0` stands for the script's
path; the shell puts it in. -/
def programLines (l : Launcher) (distributable : Bool) : List Line :=
  if distributable then [
    "from base64 import b64decode".toList,
    "import sys".toList,
    "import tempfile".toList,
    "with open('$0') as script_f:".toList,
    "  with tempfile.NamedTemporaryFile(suffix='.zip') as f:".toList,
    "    f.write(b64decode(eval(script_f.read().split('".toList ++ Script.notice ++
      "\\n', 1)[1])))".toList,
    "    f.flush()".toList,
    "    sys.path.insert(0, f.name)".toList,
    "    import ".toList ++ l.runtimeModule,
    "    ".toList ++ l.runtimeModule ++ ".main('$0')".toList]
  else [
    "import sys".toList,
    "try:".toList,
    "  import ".toList ++ l.runtimeModule,
    "except ImportError:".toList,
    "  sys.exit(".toList ++ statusText ++ [')'],
    l.runtimeModule ++ ".main('$0')".toList]

def program (l : Launcher) (distributable : Bool) : Text :=
  (l.programLines distributable).flatMap (· ++ ['\n'])

/-- The program as the value of a shell variable that `printf %b` will print: on one
line, its line breaks written `\n`. -/
def programValue (l : Launcher) (distributable : Bool) : Text :=
  (Shell.escapeBackslashes (l.program distributable)).flatMap fun c =>
    if c = '\n' then ['\\', 'n'] else [c]

def assignment (l : Launcher) (distributable : Bool) : List Text := [
  "py=\"".toList ++ l.programValue distributable ++ ['"'],
  "code=".toList ++ statusText ++ [';'],
  "if (set -o pipefail) 2>/dev/null; then set -o pipefail; fi".toList]

/-- Looks an interpreter up and, if it exists, runs the program with the script on
descriptor 3 and the caller's input on descriptor 4. -/
def attempt (interpreter : Text) : List Text := [
  "python_bin=`command -v ".toList ++ interpreter ++ " || true`;".toList,
  "if [ -n \"$\x7bpython_bin\x7d\" ]; then".toList,
  "code=0;".toList,
  "(".toList,
  "printf".toList,
  "'%b'".toList,
  "\"$\x7bpy\x7d\"".toList,
  "|".toList,
  "(".toList,
  "\"$\x7bpython_bin\x7d\"".toList,
  "/dev/fd/3".toList,
  "\"$@\"".toList,
  "0<&4".toList,
  ")".toList,
  "3<&0".toList,
  ")".toList,
  "4<&0".toList,
  "||".toList,
  "code=$?;".toList,
  "if [ $code -ne ".toList ++ statusText ++ " ]; then exit $code; fi;".toList,
  "fi".toList]

def failureReport (l : Launcher) : List Text := [
  "if [ $code -eq ".toList ++ statusText ++ " ]; then".toList,
  "echo \"pysh: script $0 requires the ".toList ++ l.runtimeModule ++
    " package. Install it with:\" >&2;".toList,
  "echo \"      $ ".toList ++ l.hint ++ "\" >&2;".toList,
  "fi".toList]

def exitStatement : List Text := ["exit".toList, "$code".toList]

/-- Each statement as the words that make it up. -/
def statements (l : Launcher) (distributable : Bool) : List (List Text) :=
  l.assignment distributable :: l.interpreters.map attempt ++ [l.failureReport, exitStatement]

def evalLine (words : List Text) : Line :=
  [' '].intercalate (("eval".toList :: words).map Shell.quoteWord)

def lines (l : Launcher) (distributable : Bool) : List Line :=
  (l.statements distributable).map evalLine

end Bootscript.Launcher
