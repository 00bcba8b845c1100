import PropertyBoard.Json.Shape
import PropertyBoard.Text.Blank

/-!
# PropertyBoard.Settings

What the environment says about how the service runs. A variable that is missing, blank or not of
its kind leaves the default.

* `Settings.ofLookup`: the settings that a look-up of variables gives.
* `Settings.location`: the address of a resource.
-/

namespace PropertyBoard

structure Settings where
  dataDir : String := "data"
  port : UInt16 := 3000
  baseUrl : String := "http://localhost:3000"
  pageSize : Int64 := 60
  searchLimit : Int64 := 200
  deriving Repr, DecidableEq

namespace Settings

/-- What stands before the path of every resource. -/
def apiRoot : String :=
  "/api/v1"

/-- The most fields that a search shows. -/
def maxSearchLimit : Int64 :=
  200

def nonBlank? (s : Option String) : Option String :=
  s.filter fun s => (Text.nonBlank? s).isSome

def readPort (s : Option String) (fallback : UInt16) : UInt16 :=
  match (s.bind fun s => Decimal.readNat? (Text.trim s)) with
  | some n => if n < UInt16.size then .ofNat n else fallback
  | none => fallback

def readSize (s : Option String) (fallback : Int64) : Int64 :=
  match s.bind fun s => Decimal.readWithin minInt64 maxInt64 (Text.trim s) with
  | some n => .ofInt n
  | none => fallback

/-- The trimmed address without slashes at its end. -/
def trimAddress (s : String) : String :=
  String.ofList ((Text.trimChars s.toList).reverse.dropWhile (· == '/')).reverse

def ofLookup (lookup : String → Option String) : Settings :=
  let default : Settings := {}
  { dataDir := (nonBlank? (lookup "PROPVIEW_DATA_DIR")).getD default.dataDir
    port := readPort (lookup "PORT") default.port
    baseUrl := ((nonBlank? (lookup "BASE_URL")).map trimAddress).getD default.baseUrl
    pageSize := max 0 (readSize (lookup "PROPVIEW_DEFAULT_PER_PAGE") default.pageSize)
    searchLimit :=
      max 0 (min maxSearchLimit
        (readSize (lookup "PROPVIEW_AUTOCOMPLETE_LIMIT") default.searchLimit)) }

def location (s : Settings) (path : String) : String :=
  s.baseUrl ++ apiRoot ++ "/" ++ path

end Settings
end PropertyBoard
