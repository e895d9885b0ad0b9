import OpcodeLens.OrderedMap
import OpcodeLens.Workspace.Path

/-!
# Editions and selections

An edition is a version of the game, known by an identifier. The table of editions says which
definition file belongs to which edition; an edition that is not in the table has a file of its own
name. A selection is an install folder with an edition, and says where the sources to load are.
-/

namespace OpcodeLens

/-- Identifiers of editions with the names of their definition files. -/
abbrev EditionTable := OrderedMap Text

namespace EditionTable

/-- The editions that are known without any settings. -/
def builtIn : EditionTable :=
  ⟨[("gta3_sbl".toList, "gta3.json".toList), ("vc_sbl".toList, "vc.json".toList),
    ("sa_sbl".toList, "sa.json".toList)]⟩

/-- The known editions, replaced and extended by the given entries. -/
def merged (entries : List (Text × Text)) : EditionTable := OrderedMap.insertAll builtIn entries

/-- The definition file of an edition. -/
def definitionsFile (table : EditionTable) (version : Text) : Text :=
  (OrderedMap.get? table version).getD (version ++ ".json".toList)

/-- Do two tables have the same entries, in any order? -/
def sameEntries (a b : EditionTable) : Bool :=
  a.entries.length = b.entries.length &&
    a.entries.all fun (key, value) => OrderedMap.get? b key = some value

end EditionTable

/-- The sources to load: an install folder and an edition. -/
structure Selection where
  /-- The install folder. -/
  root : Text
  /-- The edition. -/
  version : Text
  /-- The definition file of the edition. -/
  definitionsFile : Text
  deriving DecidableEq, Repr

/-- The selection of an edition in a folder. -/
def EditionTable.select (table : EditionTable) (root version : Text) : Selection :=
  ⟨root, version, table.definitionsFile version⟩

namespace Selection

/-- The folder of the edition's data. -/
def dataDir (s : Selection) : Text := Path.join (Path.join s.root "data".toList) s.version

/-- The path of the command definitions. -/
def definitionsPath (s : Selection) : Text := Path.join s.dataDir s.definitionsFile

/-- The path of the enumerations. -/
def enumsPath (s : Selection) : Text := Path.join s.dataDir "enums.txt".toList

end Selection

end OpcodeLens
