/-!
# The shared vocabulary of types

Schemas spell the basic types in their own way. The glossary gives each such spelling the name used
in the documentation, and knows which names have an entry of their own on the wiki page of common
types.
-/

namespace ProtocolPages.Glossary

/-- The documented name of each basic spelling. A list of bytes is a buffer, whichever of the list
spellings is used. -/
def renames : List (String × String) :=
  [("qvector<byte>", "NexBuffer"), ("qlist<byte>", "NexBuffer"), ("std_list<byte>", "NexBuffer"),
   ("byte", "u8"), ("uint16", "u16"), ("uint32", "u32"), ("uint64", "u64"),
   ("int8", "i8"), ("int16", "i16"), ("int32", "i32"), ("int64", "i64"),
   ("string", "NexString"), ("bool", "bool"), ("datetime", "DateTime"), ("qresult", "ResultCode"),
   ("stationurl", "StationURL"), ("qBuffer", "NexQBuffer"), ("buffer", "NexBuffer"),
   ("ResultRange", "ResultRange"), ("variant", "Variant"), ("any<Data,string>", "DataHolder")]

/-- The basic spellings. -/
def basicSpellings : List String :=
  renames.map Prod.fst

/-- The documented name of a spelling; a spelling without an entry names itself. -/
def rename (spelling : String) : String :=
  (renames.lookup spelling).getD spelling

/-- The anchors of the names that have an entry on the page of common types. -/
def anchors : List (String × String) :=
  [("String", "string"), ("Buffer", "buffer"), ("qBuffer", "qbuffer"), ("List", "list"),
   ("Map", "map"), ("PID", "pid"), ("Result", "result"), ("DateTime", "datetime"),
   ("StationURL", "stationurl"), ("Variant", "variant"), ("Structure", "structure"),
   ("Data", "data"), ("AnyDataHolder", "anydataholder"),
   ("RVConnectionData", "rvconnectiondata"), ("ResultRange", "resultrange")]

/-- The anchor of a name on the page of common types, if it has an entry there. -/
def anchor? (name : String) : Option String :=
  anchors.lookup name

/-- The anchor of the entry for lists. -/
def listAnchor : String := "list"

end ProtocolPages.Glossary
