import Emumet.DriverSignatureParser
import Emumet.LibBase64

/-! The parser of the `Signature` header undoes the rendering of one: the comma splitter and the decoder
of quoted values read the same escapes. -/

namespace Emumet

namespace SignatureRoundTrip

/-! ### Rendering -/

/-- Quotes and backslashes are escaped by a backslash. -/
def escape : List Char → List Char
  | [] => []
  | c :: rest => if c = '"' ∨ c = '\\' then '\\' :: c :: escape rest else c :: escape rest

/-- Any number of whitespace characters. -/
structure Blank where
  chars : List Char
  blank : ∀ c ∈ chars, isWhitespace c = true

/-- A parameter name: not empty, and free of quotes, commas, equals signs and whitespace. -/
structure ParamName where
  text : String
  nonempty : text ≠ ""
  plain : ∀ c ∈ text.toList, isWhitespace c = false ∧ c ≠ '"' ∧ c ≠ ',' ∧ c ≠ '='

/-- A parameter with the whitespace around it and around its equals sign. -/
structure Param where
  before : Blank
  name : ParamName
  beforeEquals : Blank
  afterEquals : Blank
  value : String
  after : Blank

namespace Param

def quoted (param : Param) : List Char := '"' :: (escape param.value.toList ++ ['"'])

/-- The parameter from its name to its closing quote. -/
def core (param : Param) : List Char :=
  param.name.text.toList ++ param.beforeEquals.chars ++ '=' :: (param.afterEquals.chars ++ param.quoted)

def render (param : Param) : List Char := param.before.chars ++ param.core ++ param.after.chars

end Param

/-- The parameters in their order, separated by commas. -/
def renderHeader (first : Param) (rest : List Param) : String :=
  String.ofList (first.render ++ rest.flatMap fun param => ',' :: param.render)

/-! ### The splitter -/

theorem push_ofList (l : List Char) (c : Char) : (String.ofList l).push c = String.ofList (l ++ [c]) := by
  apply String.ext
  simp

/-- The characters that mean nothing outside a quotation. -/
def Plain (c : Char) : Prop := c ≠ '"' ∧ c ≠ ','

/-- A scan outside a quotation. -/
def outside (params : List String) (current : List Char) : ParamScan :=
  ⟨params, String.ofList current, false, false⟩

theorem scan_plain {l : List Char} (h : ∀ c ∈ l, Plain c) (params : List String) (current : List Char) :
    l.foldl ParamScan.next (outside params current) = outside params (current ++ l) := by
  induction l generalizing current with
  | nil => rw [List.append_nil, List.foldl_nil]
  | cons c rest ih =>
      obtain ⟨hquote, hcomma⟩ := h c List.mem_cons_self
      have hnext : ParamScan.next (outside params current) c = outside params (current ++ [c]) := by
        simp only [ParamScan.next, outside, hquote, hcomma, push_ofList, Bool.false_eq_true, and_false,
          false_and, if_false]
      rw [List.foldl_cons, hnext, ih (fun d hd => h d (List.mem_cons_of_mem c hd)), List.append_assoc,
        List.singleton_append]

/-- Inside a quotation the escapes hide quotes, and the scan is between two of them. -/
theorem scan_escape (l : List Char) (params : List String) (current : List Char) :
    (escape l).foldl ParamScan.next ⟨params, String.ofList current, true, false⟩ =
      ⟨params, String.ofList (current ++ escape l), true, false⟩ := by
  induction l generalizing current with
  | nil => rw [escape, List.append_nil, List.foldl_nil]
  | cons c rest ih =>
      rw [escape]
      split_ifs with hspecial
      · have hnext : ParamScan.next (ParamScan.next ⟨params, String.ofList current, true, false⟩ '\\') c =
            ⟨params, String.ofList (current ++ ['\\', c]), true, false⟩ := by
          simp only [ParamScan.next, push_ofList, Bool.false_eq_true, and_self, if_true, if_false,
            List.append_assoc, List.cons_append, List.nil_append]
        rw [List.foldl_cons, List.foldl_cons, hnext, ih, List.append_assoc]
        rfl
      · rw [not_or] at hspecial
        have hnext : ParamScan.next ⟨params, String.ofList current, true, false⟩ c =
            ⟨params, String.ofList (current ++ [c]), true, false⟩ := by
          simp only [ParamScan.next, push_ofList, hspecial.1, hspecial.2, Bool.false_eq_true, and_false,
            false_and, if_false, Bool.not_true]
        rw [List.foldl_cons, hnext, ih, List.append_assoc, List.singleton_append]

theorem scan_quoted (param : Param) (params : List String) (current : List Char) :
    param.quoted.foldl ParamScan.next (outside params current) =
      outside params (current ++ param.quoted) := by
  have hopen : ParamScan.next (outside params current) '"' =
      ⟨params, String.ofList (current ++ ['"']), true, false⟩ := by
    simp only [ParamScan.next, outside, push_ofList, Bool.false_eq_true, and_false, if_false, if_true,
      Bool.not_false]
  have hclose : ∀ l : List Char, ParamScan.next ⟨params, String.ofList l, true, false⟩ '"' =
      outside params (l ++ ['"']) := by
    intro l
    rw [outside, ← push_ofList]
    rfl
  rw [Param.quoted, List.foldl_cons, hopen, List.foldl_append, scan_escape, List.foldl_cons,
    List.foldl_nil, hclose]
  simp only [List.append_assoc, List.cons_append, List.nil_append]

theorem plain_of_isWhitespace {c : Char} (h : isWhitespace c = true) : Plain c ∧ c ≠ '=' := by
  refine ⟨⟨?_, ?_⟩, ?_⟩
  all_goals
    rintro rfl
    exact absurd h (by decide)

theorem scan_param (param : Param) (params : List String) (current : List Char) :
    param.render.foldl ParamScan.next (outside params current) =
      outside params (current ++ param.render) := by
  have hblank : ∀ blank : Blank, ∀ c ∈ blank.chars, Plain c :=
    fun blank c hc => (plain_of_isWhitespace (blank.blank c hc)).1
  have hname : ∀ c ∈ param.name.text.toList, Plain c :=
    fun c hc => ⟨(param.name.plain c hc).2.1, (param.name.plain c hc).2.2.1⟩
  have hequals : ∀ c ∈ ['='], Plain c := by
    intro c hc
    rw [List.mem_singleton.mp hc]
    exact ⟨by decide, by decide⟩
  have hrender : param.render = param.before.chars ++ (param.name.text.toList ++
      (param.beforeEquals.chars ++ (['='] ++ (param.afterEquals.chars ++
        (param.quoted ++ param.after.chars))))) := by
    simp only [Param.render, Param.core, List.append_assoc, List.cons_append, List.nil_append]
  rw [hrender]
  simp only [List.foldl_append, scan_plain (hblank _), scan_plain hname, scan_plain hequals, scan_quoted,
    List.append_assoc]

/-! ### Trimming -/

theorem dropWhile_of_head {l : List Char} (h : ∀ c ∈ l.head?, isWhitespace c = false) :
    l.dropWhile isWhitespace = l := by
  cases l with
  | nil => rfl
  | cons c rest => rw [List.dropWhile_cons_of_neg (by simp [h c rfl])]

/-- Whitespace around a text is dropped. -/
theorem trim_surrounded {front inner back : List Char} (hfront : ∀ c ∈ front, isWhitespace c = true)
    (hback : ∀ c ∈ back, isWhitespace c = true) (hne : inner ≠ [])
    (hhead : ∀ c ∈ inner.head?, isWhitespace c = false)
    (hlast : ∀ c ∈ inner.getLast?, isWhitespace c = false) :
    trim (String.ofList (front ++ inner ++ back)) = String.ofList inner := by
  have hkept : (inner ++ back).dropWhile isWhitespace = inner ++ back := by
    refine dropWhile_of_head fun c hc => hhead c ?_
    rwa [List.head?_append_of_ne_nil _ hne] at hc
  have hreversed : ∀ c ∈ back.reverse, isWhitespace c = true :=
    fun c hc => hback c (List.mem_reverse.mp hc)
  rw [trim, String.toList_ofList, List.append_assoc, List.dropWhile_append_of_pos hfront, hkept,
    List.reverse_append, List.dropWhile_append_of_pos hreversed,
    dropWhile_of_head (by rwa [List.head?_reverse]), List.reverse_reverse]

theorem name_toList_ne_nil (name : ParamName) : name.text.toList ≠ [] := fun hnil =>
  name.nonempty (String.toList_eq_nil_iff.mp hnil)

theorem head_name {name : ParamName} {rest : List Char} :
    ∀ c ∈ (name.text.toList ++ rest).head?, isWhitespace c = false := by
  intro c hc
  rw [List.head?_append_of_ne_nil _ (name_toList_ne_nil name)] at hc
  exact (name.plain c (List.mem_of_mem_head? hc)).1

theorem last_quoted (front : List Char) (param : Param) :
    ∀ c ∈ (front ++ param.quoted).getLast?, isWhitespace c = false := by
  intro c hc
  rw [Param.quoted, ← List.cons_append, ← List.append_assoc, List.getLast?_concat] at hc
  cases hc
  decide

theorem core_ne_nil (param : Param) : param.core ≠ [] := by
  simp [Param.core]

theorem trim_render (param : Param) : trim (String.ofList param.render) = String.ofList param.core := by
  refine trim_surrounded param.before.blank param.after.blank (core_ne_nil param) ?_ ?_
  · rw [Param.core, List.append_assoc]
    exact head_name
  · rw [Param.core, ← List.cons_append, ← List.append_assoc]
    exact last_quoted _ param

/-! ### The parts of a header -/

theorem core_ne_empty (param : Param) : String.ofList param.core ≠ "" := by
  rw [Ne, ← String.toList_eq_nil_iff, String.toList_ofList]
  exact core_ne_nil param

/-- Each comma ends a parameter. -/
theorem scan_rest (rest : List Param) (params : List String) (current : List Char)
    (hcurrent : trim (String.ofList current) ≠ "") :
    let scan := (rest.flatMap fun param => ',' :: param.render).foldl ParamScan.next
      (outside params current)
    scan.inQuotes = false ∧ scan.flush = params ++ trim (String.ofList current) ::
      rest.map fun param => String.ofList param.core := by
  induction rest generalizing params current with
  | nil => exact ⟨rfl, by rw [List.flatMap_nil, List.foldl_nil, ParamScan.flush, outside, if_neg hcurrent]; rfl⟩
  | cons param rest ih =>
      have hcomma : ParamScan.next (outside params current) ',' =
          outside (params ++ [trim (String.ofList current)]) [] := by
        have hflush : (outside params current).flush = params ++ [trim (String.ofList current)] :=
          if_neg hcurrent
        rw [← hflush]
        rfl
      have hparam : trim (String.ofList param.render) ≠ "" := by
        rw [trim_render]
        exact core_ne_empty param
      rw [List.flatMap_cons, List.foldl_append, List.foldl_cons, hcomma, scan_param, List.nil_append]
      obtain ⟨hquotes, hflush⟩ := ih (params ++ [trim (String.ofList current)]) param.render hparam
      refine ⟨hquotes, ?_⟩
      rw [hflush, trim_render, List.append_assoc, List.map_cons]
      rfl

theorem split_renderHeader (first : Param) (rest : List Param) :
    splitSignatureParams (renderHeader first rest) =
      .ok ((first :: rest).map fun param => String.ofList param.core) := by
  have hfirst : trim (String.ofList first.render) ≠ "" := by
    rw [trim_render]
    exact core_ne_empty first
  obtain ⟨hquotes, hflush⟩ := scan_rest rest [] first.render hfirst
  have hscan : (renderHeader first rest).toList.foldl ParamScan.next .start =
      (rest.flatMap fun param => ',' :: param.render).foldl ParamScan.next (outside [] first.render) := by
    have hstart : first.render.foldl ParamScan.next .start = outside [] first.render :=
      scan_param first [] []
    rw [renderHeader, String.toList_ofList, List.foldl_append, hstart]
  rw [splitSignatureParams, hscan]
  simp only [hquotes, hflush, trim_render, Bool.false_eq_true, if_false]
  rfl

/-! ### One parameter -/

theorem unescape_cons {c : Char} (hc : c ≠ '\\') (rest : List Char) :
    unescape (c :: rest) = (unescape rest).map (c :: ·) := by
  rw [unescape]
  · exact fun h => absurd h hc
  · exact fun _ _ h => absurd h hc

/-- A text without quotes and backslashes has nothing to escape. -/
theorem escape_of_plain {l : List Char} (h : (l.all fun c => c ≠ '"' && c ≠ '\\') = true) :
    escape l = l := by
  induction l with
  | nil => rfl
  | cons c rest ih =>
      rw [List.all_cons, Bool.and_eq_true, Bool.and_eq_true, decide_eq_true_eq, decide_eq_true_eq] at h
      rw [escape, if_neg (not_or.mpr h.1), ih h.2]

theorem unescape_escape (l : List Char) : unescape (escape l) = some l := by
  induction l with
  | nil => rfl
  | cons c rest ih =>
      rw [escape]
      split_ifs with hspecial
      · rw [unescape, ih, Option.map_some]
      · rw [not_or] at hspecial
        rw [unescape_cons hspecial.2, ih, Option.map_some]

theorem parseQuotedValue_quoted (param : Param) :
    parseQuotedValue (String.ofList param.quoted) = .ok param.value := by
  have hlast : (String.ofList param.quoted).toList.getLast? = some '"' := by
    rw [String.toList_ofList, Param.quoted, ← List.cons_append, List.getLast?_concat]
  have hsize : ¬(String.ofList param.quoted).utf8ByteSize < 2 := by
    have hquote : (String.ofList ['"']).utf8ByteSize = 1 := by decide
    rw [Param.quoted, ← List.singleton_append, String.ofList_append, String.ofList_append,
      String.utf8ByteSize_append, String.utf8ByteSize_append]
    omega
  have hinner : (String.ofList param.quoted).toList.tail.dropLast = escape param.value.toList := by
    rw [String.toList_ofList, Param.quoted, List.tail_cons, List.dropLast_concat]
  rw [parseQuotedValue, if_neg (not_or.mpr ⟨not_not.mpr hlast, hsize⟩), hinner, unescape_escape]
  simp

theorem parse_core (param : Param) :
    parseSignatureParam (String.ofList param.core) = .ok (param.name.text, param.value) := by
  have hfront : '=' ∉ param.name.text.toList ++ param.beforeEquals.chars := by
    intro hmem
    rcases List.mem_append.mp hmem with hname | hblank
    · exact (param.name.plain '=' hname).2.2.2 rfl
    · exact (plain_of_isWhitespace (param.beforeEquals.blank '=' hblank)).2 rfl
  have hsplit : splitOnce '=' (String.ofList param.core) =
      some (String.ofList (param.name.text.toList ++ param.beforeEquals.chars),
        String.ofList (param.afterEquals.chars ++ param.quoted)) :=
    splitOnce_of_toList (String.toList_ofList ..) hfront
  have hname : trim (String.ofList (param.name.text.toList ++ param.beforeEquals.chars)) =
      param.name.text := by
    have hlast : ∀ c ∈ param.name.text.toList.getLast?, isWhitespace c = false :=
      fun c hc => (param.name.plain c (List.mem_of_mem_getLast? hc)).1
    have hhead : ∀ c ∈ param.name.text.toList.head?, isWhitespace c = false :=
      fun c hc => (param.name.plain c (List.mem_of_mem_head? hc)).1
    have htrim : trim (String.ofList ([] ++ param.name.text.toList ++ param.beforeEquals.chars)) =
        String.ofList param.name.text.toList :=
      trim_surrounded nofun param.beforeEquals.blank (name_toList_ne_nil param.name) hhead hlast
    rwa [List.nil_append, String.ofList_toList] at htrim
  have hvalue : trim (String.ofList (param.afterEquals.chars ++ param.quoted)) =
      String.ofList param.quoted := by
    have htrim : trim (String.ofList (param.afterEquals.chars ++ param.quoted ++ [])) =
        String.ofList param.quoted :=
      trim_surrounded param.afterEquals.blank nofun (by simp [Param.quoted]) (by rintro c ⟨⟩; decide)
        (last_quoted [] param)
    rwa [List.append_nil] at htrim
  rw [parseSignatureParam, hsplit]
  simp only [hname, hvalue, param.name.nonempty, if_false]
  rw [if_pos (by rw [String.toList_ofList]; rfl), parseQuotedValue_quoted]
  rfl

/-! ### All parameters -/

/-- A parameter as it is collected. -/
def Param.entry (param : Param) : String × String := (toAsciiLowercase param.name.text, param.value)

/-- Parameters with distinct names are collected, the last one first. -/
theorem collect_params (params : List Param) (collected : List (String × String))
    (hdistinct : (params.map (·.entry.1)).Nodup)
    (hnew : ∀ param ∈ params, param.entry.1 ∉ collected.map Prod.fst) :
    (params.map fun param => String.ofList param.core).foldlM collectParams collected =
      .ok ((params.map Param.entry).reverse ++ collected) := by
  induction params generalizing collected with
  | nil => rfl
  | cons param rest ih =>
      obtain ⟨hfirst, hrest⟩ := List.nodup_cons.mp hdistinct
      have hlookup : collected.lookup param.entry.1 = none := by
        rw [List.lookup_eq_none_iff]
        intro pair hpair
        simp only [bne_iff_ne, ne_eq]
        intro heq
        exact hnew param List.mem_cons_self (heq ▸ List.mem_map_of_mem hpair)
      have hcollect : collectParams collected (String.ofList param.core) =
          .ok (param.entry :: collected) := by
        rw [collectParams, parse_core]
        change (if (collected.lookup param.entry.1).isSome = true then _ else _) = _
        rw [hlookup]
        rfl
      rw [List.map_cons, List.foldlM_cons, hcollect]
      change List.foldlM collectParams (param.entry :: collected) _ = _
      rw [ih (param.entry :: collected) hrest]
      · simp
      · intro other hother
        rw [List.map_cons, List.mem_cons, not_or]
        refine ⟨fun heq => hfirst (List.mem_map.mpr ⟨other, hother, heq⟩), ?_⟩
        exact hnew other (List.mem_cons_of_mem param hother)

theorem lookup_of_mem {entries : List (String × String)} (hdistinct : (entries.map Prod.fst).Nodup)
    {name value : String} (hmem : (name, value) ∈ entries) : entries.lookup name = some value := by
  obtain ⟨front, back, rfl⟩ := List.append_of_mem hmem
  refine List.lookup_eq_some_iff.mpr ⟨front, back, rfl, fun pair hpair => ?_⟩
  rw [List.map_append, List.map_cons] at hdistinct
  have hne := (List.nodup_append.mp hdistinct).2.2 pair.1 (List.mem_map_of_mem hpair) name
    List.mem_cons_self
  simpa using Ne.symm hne

/-! ### The header list -/

/-- Header names separated by spaces. -/
def joinHeaders : List String → List Char
  | [] => []
  | [header] => header.toList
  | header :: rest => header.toList ++ ' ' :: joinHeaders rest

/-- A header name: not empty, and without whitespace. -/
structure HeaderName where
  text : String
  nonempty : text ≠ ""
  plain : ∀ c ∈ text.toList, isWhitespace c = false

theorem splitOnP_joinHeaders (first : HeaderName) (rest : List HeaderName) :
    (joinHeaders ((first :: rest).map HeaderName.text)).splitOnP isWhitespace =
      (first :: rest).map (·.text.toList) := by
  induction rest generalizing first with
  | nil => exact List.splitOnP_eq_singleton first.plain
  | cons second rest ih =>
      have hspace : isWhitespace ' ' = true := by decide
      have hsplit := List.splitOnP_append_cons_of_forall_mem first.plain ' ' hspace
        (joinHeaders ((second :: rest).map HeaderName.text))
      exact hsplit.trans (congrArg _ (ih second))

theorem signedHeaders_joinHeaders (first : HeaderName) (rest : List HeaderName) :
    signedHeaders (some (String.ofList (joinHeaders ((first :: rest).map HeaderName.text)))) =
      (first :: rest).map fun header => toAsciiLowercase header.text := by
  have hsplit : splitWhitespace (String.ofList (joinHeaders ((first :: rest).map HeaderName.text))) =
      (first :: rest).map HeaderName.text := by
    rw [splitWhitespace, String.toList_ofList, splitOnP_joinHeaders, List.filter_eq_self.mpr, List.map_map]
    · refine List.map_congr_left fun header _ => ?_
      exact String.ofList_toList
    · intro chars hchars
      obtain ⟨header, _, rfl⟩ := List.mem_map.mp hchars
      rw [decide_eq_true_iff]
      exact fun hnil => header.nonempty (String.toList_eq_nil_iff.mp hnil)
  rw [signedHeaders, Option.map_some, hsplit]
  exact List.map_map

/-- What is parsed of rendered parameters with different names. -/
theorem parse_renderHeader {base64Decode : String → Option Bytes} {keyId algorithm headers encoded : String}
    {signature : Bytes} {first : Param} {rest : List Param}
    (hdistinct : ((first :: rest).map (·.entry.1)).Nodup)
    (hkeyId : ("keyid", keyId) ∈ (first :: rest).map Param.entry)
    (halgorithm : ("algorithm", algorithm) ∈ (first :: rest).map Param.entry)
    (hheaders : ("headers", headers) ∈ (first :: rest).map Param.entry)
    (hsignature : ("signature", encoded) ∈ (first :: rest).map Param.entry)
    (hdecode : base64Decode encoded = some signature) :
    parseCavageSignature base64Decode (renderHeader first rest) =
      .ok { keyId, algorithm, signature, headers := signedHeaders (some headers) } := by
  have hcollect := collect_params (first :: rest) [] hdistinct fun _ _ hmem => nomatch hmem
  rw [List.append_nil] at hcollect
  have hlookup : ∀ name value, (name, value) ∈ (first :: rest).map Param.entry →
      ((first :: rest).map Param.entry).reverse.lookup name = some value := by
    intro name value hmem
    refine lookup_of_mem ?_ (List.mem_reverse.mpr hmem)
    rw [List.map_reverse, List.nodup_reverse, List.map_map]
    exact hdistinct
  simp only [parseCavageSignature, split_renderHeader, requiredParam, bind, Except.bind, pure, Except.pure]
  rw [hcollect]
  simp only [hlookup _ _ hkeyId, hlookup _ _ halgorithm, hlookup _ _ hheaders, hlookup _ _ hsignature,
    hdecode, Option.getD_some]

/-- A rendered header is parsed to what it was rendered from. The four parameters are among the rendered
ones under names that are theirs up to case, and the others have other names. -/
theorem signature_header_round_trip (base64Encode : Bytes → String)
    (base64Decode : String → Option Bytes)
    (hbase64 : ∀ bytes, base64Decode (base64Encode bytes) = some bytes) (keyId algorithm : String)
    (header : HeaderName) (headers : List HeaderName) (signature : Bytes) (first : Param)
    (rest : List Param) (hdistinct : ((first :: rest).map (·.entry.1)).Nodup)
    (hkeyId : ("keyid", keyId) ∈ (first :: rest).map Param.entry)
    (halgorithm : ("algorithm", algorithm) ∈ (first :: rest).map Param.entry)
    (hheaders : ("headers", String.ofList (joinHeaders ((header :: headers).map HeaderName.text))) ∈
      (first :: rest).map Param.entry)
    (hsignature : ("signature", base64Encode signature) ∈ (first :: rest).map Param.entry) :
    parseCavageSignature base64Decode (renderHeader first rest) =
      .ok { keyId, algorithm, signature
            headers := (header :: headers).map fun name => toAsciiLowercase name.text } := by
  rw [parse_renderHeader hdistinct hkeyId halgorithm hheaders hsignature (hbase64 signature),
    signedHeaders_joinHeaders]

/-! ### Headers with and without escapes -/

def paramName (text : String) (hne : text ≠ "")
    (h : (text.toList.all fun c => !isWhitespace c && c ≠ '"' && c ≠ ',' && c ≠ '=') = true) :
    ParamName where
  text := text
  nonempty := hne
  plain c hc := by simpa [and_assoc] using List.all_eq_true.mp h c hc

def headersName : ParamName := paramName "headers" (by decide) (by decide)

def signatureName : ParamName := paramName "signature" (by decide) (by decide)

def noBlank : Blank := ⟨[], nofun⟩

def space : Blank := ⟨[' '], by rintro c hc; rw [List.mem_singleton.mp hc]; decide⟩

/-- A parameter without any whitespace around its parts. -/
def plainParam (name : ParamName) (value : String) : Param :=
  ⟨noBlank, name, noBlank, noBlank, value, noBlank⟩

theorem render_plainParam {name : ParamName} {value : String}
    (h : (value.toList.all fun c => c ≠ '"' && c ≠ '\\') = true) :
    (plainParam name value).render = (name.text ++ "=\"" ++ value ++ "\"").toList := by
  simp only [plainParam, Param.render, Param.core, Param.quoted, noBlank, escape_of_plain h,
    String.toList_append, List.nil_append, List.append_nil, List.append_assoc]
  rfl

/-- A parameter with spaces around its equals sign and its end. -/
def spaced (name : ParamName) (value : String) : Param := ⟨noBlank, name, space, space, value, space⟩

def hostHeader : HeaderName where
  text := "Host"
  nonempty := by decide
  plain c hc := by
    have hall : ("Host".toList.all fun c => !isWhitespace c) = true := by decide
    simpa using List.all_eq_true.mp hall c hc

def escapedParams : List Param :=
  [spaced (paramName "created" (by decide) (by decide)) "1402170695",
    spaced headersName "Host",
    spaced (paramName "Algorithm" (by decide) (by decide)) "hs2019",
    spaced signatureName "QUI="]

/-- A key id with a quote, a comma, a backslash and an equals sign. -/
theorem signature_header_round_trip_escapes :
    parseCavageSignature Base64.decode (renderHeader
      (spaced (paramName "keyId" (by decide) (by decide)) "a\"b,c\\d=e") escapedParams) =
      .ok { keyId := "a\"b,c\\d=e", algorithm := "hs2019", headers := ["host"], signature := [65, 66] } :=
  signature_header_round_trip Base64.encode Base64.decode Base64.decode_encode "a\"b,c\\d=e" "hs2019"
    hostHeader [] [65, 66] (spaced (paramName "keyId" (by decide) (by decide)) "a\"b,c\\d=e")
    escapedParams (by decide) (by decide) (by decide) (by decide) (by decide +kernel)

end SignatureRoundTrip

end Emumet
