import EnvoyGo.GoText
import EnvoyGo.BodyReplacement
import Mathlib.Data.List.Sort
import Mathlib.Data.Rat.Defs

/-!
The compressor filter.  It announces the encoding when it sees the response's headers and decides
again, from the data, whether to compress; the compressed body goes to the chain's override slot.
-/

namespace EnvoyGo.Compressor

variable {τ α req : Type}

/-- `compress/gzip`: what a writer of a level makes of a body, and which bytes are a gzip
encoding of which. -/
structure GzipLibrary where
  compress : Int → Bytes → Bytes
  Encodes : Bytes → Bytes → Prop
  compress_encodes : ∀ level body, Encodes (compress level body) body

/-- `strconv.ParseFloat`: the finite `float64` it returns, which is a rational; an error, NaN and
the infinities are `none`. -/
abbrev FloatParser := List Char → Option ℚ

def gzipLibraryTypeURL : String :=
  "type.googleapis.com/envoy.extensions.compression.gzip.compressor.v3.Gzip"

def defaultMinContentLength : Nat := 30

def defaultContentTypes : List String :=
  ["application/javascript", "application/json", "application/xhtml+xml", "image/svg+xml",
    "text/css", "text/html", "text/plain", "text/xml"]

structure CompiledConfig where
  level : Int
  minContentLength : Nat := defaultMinContentLength
  contentTypes : List String := defaultContentTypes
  disableOnEtagHeader : Bool := false
  removeAcceptEncodingHeader : Bool := false
  uncompressibleResponseCodes : List Nat := []

/-- `buildCompiledGzipConfig`: the `compression_level` enum as a level of the library. -/
def buildCompiledGzipConfig (compressionLevel : Nat) : Int :=
  if 1 ≤ compressionLevel ∧ compressionLevel ≤ 9 then compressionLevel else -1

/-- The typed config of a `compressor_library`; `gzip` is what it unmarshals to. -/
structure LibraryConfig where
  typeURL : String
  gzip : Except String Nat

def unmarshalCompressorLibrary (library : Option (Option LibraryConfig)) : Except String Int :=
  match library with
  | none => .error "compressor: compressor_library is required"
  | some none => .error "compressor: compressor_library.typed_config is required"
  | some (some tc) =>
    if tc.typeURL ≠ gzipLibraryTypeURL then
      .error ("compressor: unsupported compressor_library TypeURL " ++ Text.quote tc.typeURL ++
        "; phase-14 MVP supports only " ++ gzipLibraryTypeURL)
    else match tc.gzip with
    | .error err => .error ("compressor: invalid Gzip typed_config: " ++ err)
    | .ok compressionLevel => .ok (buildCompiledGzipConfig compressionLevel)

structure CommonConfig where
  minContentLength : Option Nat := none
  contentType : List String := []

structure ResponseDirectionConfig where
  disableOnEtagHeader : Bool := false
  removeAcceptEncodingHeader : Bool := false
  commonConfig : Option CommonConfig := none

def buildCompiledConfig (rdc : Option ResponseDirectionConfig) (level : Int) : CompiledConfig :=
  match rdc with
  | none => { level := level }
  | some rdc =>
    let cc : CompiledConfig :=
      { level := level
        disableOnEtagHeader := rdc.disableOnEtagHeader
        removeAcceptEncodingHeader := rdc.removeAcceptEncodingHeader }
    match rdc.commonConfig with
    | none => cc
    | some common =>
      { cc with
        minContentLength := common.minContentLength.getD defaultMinContentLength
        contentTypes :=
          if common.contentType.length > 0 then common.contentType else defaultContentTypes }

structure CompiledPerRoute where
  disabled : Bool := false
  removeAcceptEncodingHeaderOverride : Option Bool := none

/-- The route's message: the `override` oneof of a `CompressorPerRoute`, or another type. -/
inductive PerRoute
  | disabled (disabled : Bool)
  | overrides (removeAcceptEncodingHeader : Option Bool)
  | unset
  | other (typeName : String)

def parsePerRoute : PerRoute → Except String CompiledPerRoute
  | .disabled true => .ok { disabled := true }
  | .disabled false =>
    .error "compressor per-route: disabled must be true (PGV bool.const violation)"
  | .overrides rmae => .ok { removeAcceptEncodingHeaderOverride := rmae }
  | .unset =>
    .error ("compressor per-route: override oneof is required " ++
      "(neither disabled nor overrides set)")
  | .other typeName =>
    .error ("compressor per-route: expected *CompressorPerRoute, got " ++ typeName)

section AcceptEncoding

inductive Codec
  | gzip
  deriving DecidableEq

inductive Classification
  | compressorUsed
  | overshadowed
  | identity
  | wildcard
  | noAcceptHeader
  | notValid
  deriving DecidableEq

def recognizedUnconfiguredCodings : List String := ["br", "deflate", "compress", "zstd"]

structure EncodingEntry where
  coding : String
  qValue : ℚ

def parseQValue (parseFloat : FloatParser) (s : List Char) : Option ℚ :=
  match parseFloat (Text.trimSpace s) with
  | none => none
  | some v => if v < 0 ∨ v > 1 then none else some v

def parseParams (parseFloat : FloatParser) : List (List Char) → ℚ → Option ℚ
  | [], q => some q
  | p :: ps, q =>
    let p := Text.trimSpace p
    match p with
    | 'q' :: '=' :: v => (parseQValue parseFloat v).bind (parseParams parseFloat ps)
    | 'Q' :: '=' :: v => (parseQValue parseFloat v).bind (parseParams parseFloat ps)
    | _ => parseParams parseFloat ps q

def parseEncoding (parseFloat : FloatParser) (raw : List Char) : Option EncodingEntry :=
  match Text.split ';' raw with
  | [] => none
  | head :: params =>
    let token := toLower (String.ofList (Text.trimSpace head))
    if token = "" then none
    else (parseParams parseFloat params 1).map (EncodingEntry.mk token)

def selectable : List EncodingEntry → Option (Option Codec × Classification)
  | [] => none
  | e :: es =>
    if e.qValue ≤ 0 then selectable es
    else if e.coding = "gzip" then some (some .gzip, .compressorUsed)
    else if e.coding = "identity" then some (none, .identity)
    else if e.coding = "*" then some (some .gzip, .wildcard)
    else selectable es

def selectByQValue (entries : List EncodingEntry) : Option Codec × Classification :=
  match selectable entries with
  | some selected => selected
  | none =>
    if entries.any (fun e => 0 < e.qValue && recognizedUnconfiguredCodings.contains e.coding) then
      (none, .overshadowed)
    else (none, .identity)

/-- Equal weights keep the order of the header. -/
def parseAcceptEncoding (parseFloat : FloatParser) (header : String) :
    Option Codec × Classification :=
  if Text.trimSpace header.toList = [] then (none, .noAcceptHeader)
  else match (Text.split ',' header.toList).mapM (parseEncoding parseFloat) with
  | none => (none, .notValid)
  | some entries => selectByQValue (entries.insertionSort (fun a b => a.qValue ≥ b.qValue))

end AcceptEncoding

/-- The fields of one stream; the first two are empty before `DecodeHeaders`. -/
structure State where
  acceptedEncoding : Option Codec := none
  acceptHeaderClassification : Option Classification := none
  perRoute : Option CompiledPerRoute := none
  passthrough : Bool := false
  willCompress : Bool := false

def effectiveConfig (cc : CompiledConfig) (st : State) : CompiledConfig :=
  match st.perRoute.bind CompiledPerRoute.removeAcceptEncodingHeaderOverride with
  | none => cc
  | some rmae => { cc with removeAcceptEncodingHeader := rmae }

def negotiate (parseFloat : FloatParser) (routeConfig : Option PerRoute) (w : World State) :
    World State :=
  let ae := parseAcceptEncoding parseFloat (Header.get w.request "Accept-Encoding")
  let perRoute := match routeConfig.map parsePerRoute with
    | some (.ok cpr) => some cpr
    | _ => w.filters.perRoute
  { w with filters :=
    { w.filters with
      acceptedEncoding := ae.1
      acceptHeaderClassification := some ae.2
      perRoute := perRoute
      passthrough := w.filters.passthrough || (perRoute.map (·.disabled)).getD false } }

def decodeHeaders (parseFloat : FloatParser) (cc : CompiledConfig)
    (routeConfig : Option PerRoute) : FilterProg State FilterHeadersStatus :=
  .touch (negotiate parseFloat routeConfig) (fun w =>
    if (w.filters.perRoute.map (·.disabled)).getD false then .done .continueIteration
    else if (effectiveConfig cc w.filters).removeAcceptEncodingHeader then
      .touch (fun w => { w with request := Header.del w.request "Accept-Encoding" })
        (fun _ => .done .continueIteration)
    else .done .continueIteration)

section SkipReason

inductive SkipReason
  | noAcceptHeader
  | identity
  | wildcardUncompressed
  | notValid
  | overshadowed
  | uncompressibleStatus
  | alreadyEncoded
  | etagDisabled
  | noTransform
  | contentTypeMismatch
  | contentLengthTooSmallKnown
  deriving DecidableEq

def SkipReason.acceptSide : SkipReason → Bool
  | .noAcceptHeader => true
  | .identity => true
  | .wildcardUncompressed => true
  | .notValid => true
  | .overshadowed => true
  | _ => false

/-- `strconv.ParseUint(s, 10, bits)`. -/
def parseUint (bits : Nat) (s : String) : Option Nat :=
  (digitsToNat s.toList).filter (fun n => n < 2^bits)

def contentTypeMatches (responseCT : String) (list : List String) : Bool :=
  if responseCT = "" then false
  else
    let mediaType := (Text.trimSpace responseCT.toList).takeWhile
      (fun c => !(c == ';' || c == ' ' || c == '\t'))
    list.any (fun allowed => equalFold (String.ofList mediaType) allowed)

def hasToken (value token : String) : Bool :=
  (Text.split ',' value.toList).any
    (fun tok => equalFold (String.ofList (Text.trimSpace tok)) token)

def uncompressibleStatus (headers : Header) (cc : CompiledConfig) : Bool :=
  match parseUint 32 (Header.get headers ":status") with
  | none => false
  | some code => cc.uncompressibleResponseCodes.contains code

def contentLengthTooSmall (headers : Header) (cc : CompiledConfig) : Bool :=
  match parseUint 64 (Header.get headers "Content-Length") with
  | none => false
  | some n => n < cc.minContentLength

def serverSkipReason (headers : Header) (cc : CompiledConfig) : Option SkipReason :=
  if uncompressibleStatus headers cc then some .uncompressibleStatus
  else if Header.get headers "Content-Encoding" ≠ "" then some .alreadyEncoded
  else if cc.disableOnEtagHeader ∧ Header.get headers "Etag" ≠ "" then some .etagDisabled
  else if hasToken (Header.get headers "Cache-Control") "no-transform" then some .noTransform
  else if !contentTypeMatches (Header.get headers "Content-Type") cc.contentTypes then
    some .contentTypeMismatch
  else if contentLengthTooSmall headers cc then some .contentLengthTooSmallKnown
  else none

def computeSkipReason (headers : Header) (effective : CompiledConfig)
    (cls : Option Classification) (acceptedEncoding : Option Codec) : Option SkipReason :=
  match cls, acceptedEncoding with
  | some .noAcceptHeader, _ => some .noAcceptHeader
  | some .identity, _ => some .identity
  | some .notValid, _ => some .notValid
  | some .overshadowed, _ => some .overshadowed
  | some .wildcard, none => some .wildcardUncompressed
  | _, none => some .notValid
  | _, some .gzip => serverSkipReason headers effective

end SkipReason

section Encode

def appendVaryAcceptEncoding (headers : Header) : Header :=
  let existing := Header.get headers "Vary"
  if existing = "" then Header.set headers "Vary" "Accept-Encoding"
  else if hasToken existing "Accept-Encoding" then headers
  else Header.set headers "Vary" (existing ++ ", Accept-Encoding")

def isStrongEtag (v : String) : Bool :=
  match v.toList with
  | '"' :: rest => rest.getLast? == some '"' && !rest.dropLast.contains '"'
  | _ => false

def maybeStripStrongEtag (headers : Header) : Header :=
  if isStrongEtag (Header.get headers "Etag") then Header.del headers "Etag" else headers

def announced (effective : CompiledConfig) (headers : Header) : Header :=
  let h1 := appendVaryAcceptEncoding (Header.set headers "Content-Encoding" "gzip")
  let h2 := if effective.disableOnEtagHeader then h1 else maybeStripStrongEtag h1
  Header.del h2 "Content-Length"

/-- `EncodeHeaders` on the compress path announces the encoding and notes that it did. -/
def onEncodeHeaders (cc : CompiledConfig) (w : World State) : World State :=
  if w.filters.passthrough then w
  else
    let effective := effectiveConfig cc w.filters
    match computeSkipReason w.response effective w.filters.acceptHeaderClassification
        w.filters.acceptedEncoding with
    | some reason =>
      if reason.acceptSide then { w with response := appendVaryAcceptEncoding w.response } else w
    | none =>
      { w with
        response := announced effective w.response
        filters := { w.filters with willCompress := true } }

def encodeHeaders (cc : CompiledConfig) : FilterProg State FilterHeadersStatus :=
  .touch (onEncodeHeaders cc) (fun _ => .done .continueIteration)

def belowMinContentLength (bodyLen minContentLength : Nat) : Bool := bodyLen < minContentLength

def encodeData (gz : GzipLibrary) (cc : CompiledConfig) (data : Bytes) (endStream : Bool) :
    FilterProg State FilterDataStatus :=
  .touch id (fun w =>
    if w.filters.passthrough || !w.filters.willCompress then .done .dataContinue
    else if !endStream then .done .dataContinue
    else if belowMinContentLength data.length (effectiveConfig cc w.filters).minContentLength then
      .done .dataContinue
    else .overwriteBody (gz.compress cc.level data) (.done .dataContinue))

end Encode

def compressorFilter (gz : GzipLibrary) (parseFloat : FloatParser) (cc : CompiledConfig)
    (routeConfig : Option PerRoute) : HTTPFilter State where
  name := "envoy.filters.http.compressor"
  decoder := some
    { decodeHeaders := fun _ => decodeHeaders parseFloat cc routeConfig
      decodeData := fun _ _ => .done .dataContinue
      parked := .done .ctxDone }
  encoder := some
    { encodeHeaders := fun _ => encodeHeaders cc
      encodeData := encodeData gz cc
      parked := .done .ctxDone }

end EnvoyGo.Compressor
