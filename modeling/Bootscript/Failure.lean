import Bootscript.Host
import Bootscript.Launcher.Settings
import Bootscript.Script.Parser

/-! Why a run fails, and the text that says so. -/
namespace Bootscript

inductive Failure where
  | malformed (cause : Script.Malformed)
  | refused (setting : Refusal)
  | noSources (root : Bytes)
  | unreadableSources (what : Unreadable)
  | duplicateMember (name : Text)
  | os (cause : OsError)
  deriving DecidableEq, Repr

namespace Failure

/-- A path as it is shown; bytes that are not UTF-8 are replaced. -/
def showPath (path : Bytes) : String := String.ofList (Text.decodeLossy path)

def message : Failure → String
  | malformed cause => cause.message
  | refused setting => setting.message
  | noSources root => "no runtime sources found under " ++ showPath root
  | unreadableSources what =>
    "cannot read runtime tree: IO error for operation on " ++ showPath what.path ++ ": " ++
      what.cause.message
  | duplicateMember name =>
    "cannot build runtime archive: invalid Zip archive: Duplicate filename: " ++ String.ofList name
  | os cause => cause.message

end Failure
end Bootscript
