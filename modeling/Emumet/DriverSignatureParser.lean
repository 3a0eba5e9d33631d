import Emumet.KernelActivity

/-! The parser of the `Signature` header. A header is a list of parameters separated by commas; a
quoted value may hold commas and escaped characters. -/

namespace Emumet

abbrev Bytes := List UInt8

/-- `into_bytes`. -/
def utf8 (text : String) : Bytes := text.toUTF8.data.toList

theorem utf8_injective : Function.Injective utf8 := fun _ _ h =>
  String.toByteArray_inj.mp (ByteArray.ext (Array.toList_inj.mp h))

/-! ### Text -/

def eqIgnoreAsciiCase (left right : String) : Bool := toAsciiLowercase left = toAsciiLowercase right

def trim (text : String) : String :=
  String.ofList (((text.toList.dropWhile isWhitespace).reverse.dropWhile isWhitespace).reverse)

/-- A text without whitespace is its own trimmed text. -/
theorem trim_of_plain {text : String} (h : ∀ c ∈ text.toList, isWhitespace c = false) :
    trim text = text := by
  have hkeep : ∀ l : List Char, (∀ c ∈ l, isWhitespace c = false) → l.dropWhile isWhitespace = l := by
    intro l hl
    cases l with
    | nil => rfl
    | cons c rest => rw [List.dropWhile_cons_of_neg (by simp [hl c List.mem_cons_self])]
  rw [trim, hkeep _ h, hkeep _ fun c hc => h c (List.mem_reverse.mp hc), List.reverse_reverse,
    String.ofList_toList]

def splitWhitespace (text : String) : List String :=
  ((text.toList.splitOnP isWhitespace).filter (· ≠ [])).map String.ofList

/-! ### Parameters -/

/-- The parameters read so far, the one being read, and whether the last character opened a quotation
or escaped the next one. -/
structure ParamScan where
  params : List String
  current : String
  inQuotes : Bool
  escaped : Bool
  deriving DecidableEq, Repr

namespace ParamScan

def start : ParamScan := ⟨[], "", false, false⟩

/-- The parameters with the one being read, unless it is blank. -/
def flush (scan : ParamScan) : List String :=
  if trim scan.current = "" then scan.params else scan.params ++ [trim scan.current]

def next (scan : ParamScan) (ch : Char) : ParamScan :=
  if scan.escaped then { scan with current := scan.current.push ch, escaped := false }
  else if ch = '\\' ∧ scan.inQuotes then
    { scan with current := scan.current.push ch, escaped := true }
  else if ch = '"' then
    { scan with current := scan.current.push ch, inQuotes := !scan.inQuotes }
  else if ch = ',' ∧ !scan.inQuotes then { scan with params := scan.flush, current := "" }
  else { scan with current := scan.current.push ch }

end ParamScan

def splitSignatureParams (header : String) : Except String (List String) :=
  let scan := header.toList.foldl ParamScan.next .start
  if scan.inQuotes then .error "unterminated quoted parameter"
  else if scan.flush.isEmpty then .error "Signature header is empty"
  else .ok scan.flush

/-- The text of a quotation without its escapes; none if it ends with one. -/
def unescape : List Char → Option (List Char)
  | [] => some []
  | '\\' :: [] => none
  | '\\' :: ch :: rest => (unescape rest).map (ch :: ·)
  | ch :: rest => (unescape rest).map (ch :: ·)

def parseQuotedValue (value : String) : Except String String :=
  if value.toList.getLast? ≠ some '"' ∨ value.utf8ByteSize < 2 then
    .error "quoted parameter is not closed"
  else
    match unescape value.toList.tail.dropLast with
    | some output => .ok (String.ofList output)
    | none => .error "quoted parameter ends with an escape"

def parseSignatureParam (part : String) : Except String (String × String) :=
  match splitOnce '=' part with
  | none => .error ("parameter is missing '=': " ++ part)
  | some (name, value) => do
      if trim name = "" then .error "parameter name is empty"
      else if (trim value).toList.head? = some '"' then
        pure (trim name, ← parseQuotedValue (trim value))
      else pure (trim name, trim value)

/-! ### The header -/

structure CavageSignature where
  keyId : String
  algorithm : String
  headers : List String
  signature : Bytes
  deriving DecidableEq, Repr

/-- Parameters by lower-cased name. -/
def collectParams (params : List (String × String)) (part : String) :
    Except String (List (String × String)) := do
  let (name, value) ← parseSignatureParam part
  if (params.lookup (toAsciiLowercase name)).isSome then
    .error "duplicate signature parameter is not allowed"
  else pure ((toAsciiLowercase name, value) :: params)

/-- The signed headers, `date` when none are named. -/
def signedHeaders (value : Option String) : List String :=
  match (value.map splitWhitespace).getD [] with
  | [] => ["date"]
  | headers => headers.map toAsciiLowercase

/-- A parameter that has to be there. -/
def requiredParam (params : List (String × String)) (name missing : String) : Except String String :=
  match params.lookup name with
  | some value => .ok value
  | none => .error missing

def parseCavageSignature (base64Decode : String → Option Bytes) (header : String) :
    Except String CavageSignature := do
  let params ← (← splitSignatureParams header).foldlM collectParams []
  let keyId ← requiredParam params "keyid" "keyId parameter is required"
  let encoded ← requiredParam params "signature" "signature parameter is required"
  match base64Decode encoded with
  | none => .error "signature is not valid base64"
  | some signature =>
      pure { keyId, signature
             algorithm := (params.lookup "algorithm").getD "rsa-sha256"
             headers := signedHeaders (params.lookup "headers") }

end Emumet
