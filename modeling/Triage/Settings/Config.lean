import Triage.Report.Code
import Triage.Settings.Dotenv
import Triage.Text.Decimal
import Triage.Text.Flag

/-!
# Configuration

* `Config`               the settings, with their defaults;
* `Config.ofVariables`   the settings that variables give; a value that cannot be read leaves the
                         default;
* `cxxBinaryFor`         the C++ driver that stands beside a C driver;
* `lookup env file`      a variable of the environment, or else of a file.
-/

namespace Triage

structure Config where
  /-- the quiet period before a search is sent, in milliseconds -/
  searchDebounceMs : Nat := 300
  defaultDetectionStatuses : List DetectionStatus := [.new, .reopened, .unresolved]
  defaultUnique : Bool := true
  /-- how many candidates a page holds -/
  itemsPageSize : Nat := 10
  logLevel : String := "info"
  clangBinary : String := "clang"
  clangxxBinary : String := "clang++"
deriving DecidableEq, Repr

abbrev Variables := List (String × String)

namespace Config

def lookup (environment file : Variables) (name : String) : Option String :=
  (Table.get? name environment).or (Table.get? name file)

/-- the file name of a driver, with `clang` at its front made `clang++` -/
def cxxName (file : List Char) : List Char :=
  match Text.after? "clang".toList file with
  | some rest => "clang++".toList ++ rest
  | none => file

/-- A driver without a directory, or directly under the root, gives a bare name. -/
def cxxBinaryFor (clang : String) : String :=
  match Text.cutLast? '/' clang.toList with
  | some ([], file) => String.ofList (cxxName file)
  | some (dir, file) => String.ofList (dir ++ '/' :: cxxName file)
  | none => String.ofList (cxxName clang.toList)

/-- the known statuses of a list with commas -/
def statuses (raw : String) : List DetectionStatus :=
  (raw.toList.splitOn ',').filterMap fun piece => Coded.ofLabel? (String.ofList piece)

def word64? (raw : String) : Option Nat := Text.unsigned? Text.maxWord64 (Text.trimChars raw.toList)

/-- the lower-case form, if anything is left of the text -/
def level? (raw : String) : Option String :=
  let cs := (Text.trimChars raw.toList).map Char.toLower
  if cs = [] then none else some (String.ofList cs)

/-- the text, unless it is blank -/
def unlessBlank (raw : String) : Option String := if Text.isBlankText raw then none else some raw

def ofVariables (var : String → Option String) : Config :=
  let base : Config := {}
  let clang := (var "BUGVIEW_CLANG_BINARY").bind unlessBlank
  let clangxx := (var "BUGVIEW_CLANGXX_BINARY").bind unlessBlank
  { searchDebounceMs := ((var "BUGVIEW_SEARCH_DEBOUNCE_MS").bind word64?).getD base.searchDebounceMs
    defaultDetectionStatuses :=
      ((var "BUGVIEW_DEFAULT_DETECTION_STATUS").map statuses).getD base.defaultDetectionStatuses
    defaultUnique := ((var "BUGVIEW_DEFAULT_UNIQUE").bind Text.flag?).getD base.defaultUnique
    itemsPageSize :=
      max 1 (((var "BUGVIEW_ITEMS_PAGE_SIZE").bind word64?).getD base.itemsPageSize)
    logLevel := ((var "BUGVIEW_LOG_LEVEL").bind level?).getD base.logLevel
    clangBinary := clang.getD base.clangBinary
    clangxxBinary := (clangxx.or (clang.map cxxBinaryFor)).getD base.clangxxBinary }

end Config

end Triage
