import Mbpfan.CString

/-!
# The string map and the settings of a configuration file

`strmap.c` and the part of `settings.c` that `retrieve_settings` uses. Allocation is taken
to succeed, `char` to be signed. `none` stands for a returned 0 or NULL.
-/

namespace Mbpfan

open Library

/-! ## strmap.c -/

structure Pair where
  key : CString
  value : CString

/-- `count` is the number of the buckets. -/
structure StrMap where
  buckets : List (List Pair)

def smNew (capacity : ℕ) : StrMap := ⟨List.replicate capacity []⟩

def signExtend (c : UInt8) : UInt64 := if c < 128 then c.toUInt64 else c.toUInt64 - 256

def hash (str : CString) : UInt64 :=
  str.foldl (fun hash c => (hash <<< 5) + hash + signExtend c) 5381

def bucketIndex (map : StrMap) (key : CString) : ℕ := (hash key).toNat % map.buckets.length

def getPair (bucket : List Pair) (key : CString) : Option Pair :=
  bucket.find? fun pair => pair.key = key

def smGet (map : StrMap) (key : CString) (size : ℕ) : Option CString :=
  match getPair (map.buckets.getD (bucketIndex map key) []) key with
  | none => none
  | some pair => if pair.value.length ≥ size then none else some pair.value

/-- The first pair with the key gets the value; without one a pair is appended. -/
def putPair (key value : CString) : List Pair → List Pair
  | [] => [⟨key, value⟩]
  | pair :: rest =>
    if pair.key = key then { pair with value := value } :: rest
    else pair :: putPair key value rest

def smPut (map : StrMap) (key value : CString) : StrMap :=
  { map with buckets := map.buckets.modify (bucketIndex map key) (putPair key value) }

/-! ## settings.c -/

def maxValueChars : ℕ := 256
def maxLineChars : ℕ := 522
def defaultStrmapCapacity : ℕ := 256

structure Section where
  name : CString
  map : StrMap

abbrev Settings := List Section

def getSection (settings : Settings) (name : CString) : Option Section :=
  settings.find? fun s => s.name = name

def settingsGet (settings : Settings) (sectionName key : CString) (size : ℕ) : Option CString :=
  match getSection settings sectionName with
  | none => none
  | some s => smGet s.map key size

def settingsGetInt (settings : Settings) (sectionName key : CString) : CInt :=
  match settingsGet settings sectionName key maxValueChars with
  | none => CInt.zero
  | some value => atoi value

def putSection (name key value : CString) : Settings → Settings
  | [] => [⟨name, smPut (smNew defaultStrmapCapacity) key value⟩]
  | s :: rest =>
    if s.name = name then { s with map := smPut s.map key value } :: rest
    else s :: putSection name key value rest

def settingsSet (settings : Settings) (sectionName key value : CString) : Option Settings :=
  if sectionName.length = 0 then none else some (putSection sectionName key value settings)

def isBlankChar (c : UInt8) : Bool :=
  c = chr ' ' ∨ c = chr '\t' ∨ c = chr '\r' ∨ c = chr '\n'

def dropBlanksRight (str : CString) : CString := (str.reverse.dropWhile isBlankChar).reverse

def trimStr (str : CString) : CString := dropBlanksRight (str.dropWhile isBlankChar)

def isBlankStr (str : CString) : Bool := str.all isBlankChar

def isCommentStr (str : CString) : Bool := str.head? = some (chr '#')

def isSectionStr (str : CString) : Bool := str.head? = some (chr '[') ∧ chr ']' ∈ str

def isKeyValueStr (str : CString) : Bool := str.head? ≠ some (chr '=') ∧ chr '=' ∈ str

def isKeyWithoutValueStr (str : CString) : Bool := str.head? ≠ some (chr '=') ∧ chr '=' ∉ str

/-- The copy of `str` into a buffer of `size` bytes, which fails when it does not fit. -/
def copyStr (str : CString) (size : ℕ) : Option CString :=
  if str.length < size then some str else none

def getSectionFromStr (str : CString) (size : ℕ) : Option CString :=
  copyStr (str.tail.takeWhile (· ≠ chr ']')) size

def getKeyValueFromStr (str : CString) (keySize valueSize : ℕ) : Option (CString × CString) :=
  match copyStr (str.takeWhile (· ≠ chr '=')) keySize with
  | none => none
  | some key =>
    match copyStr ((str.dropWhile (· ≠ chr '=')).tail.dropWhile isBlankChar) valueSize with
    | none => none
    | some value => some (dropBlanksRight key, value)

def getKeyWithoutValueFromStr (str : CString) (size : ℕ) : Option CString := copyStr str size

structure ParseState where
  settings : Settings
  currentSection : Option CString

def assign (state : ParseState) (key value : CString) : Option ParseState :=
  match state.currentSection with
  | none => none
  | some sectionName =>
    match settingsSet state.settings sectionName key value with
    | none => none
    | some settings => some { state with settings := settings }

def parseStr (state : ParseState) (str : CString) : Option ParseState :=
  if str = [] then some state
  else if isBlankStr str then some state
  else if isCommentStr str then some state
  else if isSectionStr str then
    match getSectionFromStr str maxLineChars with
    | none => none
    | some name =>
      if name.length + 1 > maxLineChars then none
      else some { state with currentSection := some name }
  else if isKeyValueStr str then
    match getKeyValueFromStr str maxLineChars maxLineChars with
    | none => none
    | some (key, value) => assign state key value
  else if isKeyWithoutValueStr str then
    match getKeyWithoutValueFromStr str maxLineChars with
    | none => none
    | some key => assign state key []
  else none

def settingsOpen (stream : List UInt8) : Option Settings :=
  ((fgetsBuffers maxLineChars [] stream).foldlM
    (fun state buf => parseStr state (trimStr (upToNul buf))) ⟨[], none⟩).map
    ParseState.settings

end Mbpfan
