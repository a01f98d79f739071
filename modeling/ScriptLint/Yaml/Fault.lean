import ScriptLint.Value

/-!
# Faults of a YAML document

A document is refused for one cause, with the line it was noticed on where that is known. The causes
follow the layers of reading: the bytes, the tokens, the structure, and the values of the nodes.
-/

namespace ScriptLint.Yaml

/-- Why a document is refused. -/
inductive Cause where
  -- The bytes of the document.
  | controlCharacter
  | badLeadingOctet
  | incompleteUtf8
  | badTrailingOctet
  | overlongUtf8
  | badCodePoint
  | incompleteUtf16
  | unexpectedLowSurrogate
  | incompletePair
  | expectedLowSurrogate
  -- Its tokens.
  | cannotStartToken
  | expectedColon
  | entryNotAllowed
  | keyNotAllowed
  | valueNotAllowed
  | tooDeep
  | unknownDirective
  | expectedLineEnd
  | expectedDirectiveName
  | directiveNotAlphabetical
  | expectedVersionPoint
  | versionTooLong
  | expectedVersion
  | expectedBlank
  | expectedBlankOrBreak
  | badAnchorName
  | expectedTagClose
  | expectedTagHandle
  | expectedTagUri
  | badUriEscape
  | badUriLeadingOctet
  | badUriTrailingOctet
  | zeroIndentation
  | tabIndentation
  | documentIndicator
  | endOfStream
  | unknownEscape
  | expectedHexadecimal
  | badEscapeCode
  | tabInPlain
  -- Its structure.
  | expectedDocumentStart
  | duplicateVersion
  | incompatibleVersion
  | duplicateTagHandle
  | undefinedTagHandle
  | expectedContent
  | expectedDash
  | expectedKey
  | expectedCommaOrBracket
  | expectedCommaOrBrace
  | unknownAnchor (name : Bytes)
  -- The values of its nodes.
  | anchorContainsItself (name : Bytes)
  | excessiveAliasing
  | badBase64
  | badMerge
  | badMapKey (key : Value)
  | cannotDecode (found : Bytes) (text : Bytes) (wanted : Bytes)

/-- The wording of a cause. -/
def Cause.message : Cause → Bytes
  | .controlCharacter => bytes "control characters are not allowed"
  | .badLeadingOctet => bytes "invalid leading UTF-8 octet"
  | .incompleteUtf8 => bytes "incomplete UTF-8 octet sequence"
  | .badTrailingOctet => bytes "invalid trailing UTF-8 octet"
  | .overlongUtf8 => bytes "invalid length of a UTF-8 sequence"
  | .badCodePoint => bytes "invalid Unicode character"
  | .incompleteUtf16 => bytes "incomplete UTF-16 character"
  | .unexpectedLowSurrogate => bytes "unexpected low surrogate area"
  | .incompletePair => bytes "incomplete UTF-16 surrogate pair"
  | .expectedLowSurrogate => bytes "expected low surrogate area"
  | .cannotStartToken => bytes "found character that cannot start any token"
  | .expectedColon => bytes "could not find expected ':'"
  | .entryNotAllowed => bytes "block sequence entries are not allowed in this context"
  | .keyNotAllowed => bytes "mapping keys are not allowed in this context"
  | .valueNotAllowed => bytes "mapping values are not allowed in this context"
  | .tooDeep => bytes "exceeded max depth of 10000"
  | .unknownDirective => bytes "found unknown directive name"
  | .expectedLineEnd => bytes "did not find expected comment or line break"
  | .expectedDirectiveName => bytes "could not find expected directive name"
  | .directiveNotAlphabetical => bytes "found unexpected non-alphabetical character"
  | .expectedVersionPoint => bytes "did not find expected digit or '.' character"
  | .versionTooLong => bytes "found extremely long version number"
  | .expectedVersion => bytes "did not find expected version number"
  | .expectedBlank => bytes "did not find expected whitespace"
  | .expectedBlankOrBreak => bytes "did not find expected whitespace or line break"
  | .badAnchorName => bytes "did not find expected alphabetic or numeric character"
  | .expectedTagClose => bytes "did not find the expected '>'"
  | .expectedTagHandle => bytes "did not find expected '!'"
  | .expectedTagUri => bytes "did not find expected tag URI"
  | .badUriEscape => bytes "did not find URI escaped octet"
  | .badUriLeadingOctet => bytes "found an incorrect leading UTF-8 octet"
  | .badUriTrailingOctet => bytes "found an incorrect trailing UTF-8 octet"
  | .zeroIndentation => bytes "found an indentation indicator equal to 0"
  | .tabIndentation => bytes "found a tab character where an indentation space is expected"
  | .documentIndicator => bytes "found unexpected document indicator"
  | .endOfStream => bytes "found unexpected end of stream"
  | .unknownEscape => bytes "found unknown escape character"
  | .expectedHexadecimal => bytes "did not find expected hexdecimal number"
  | .badEscapeCode => bytes "found invalid Unicode character escape code"
  | .tabInPlain => bytes "found a tab character that violates indentation"
  | .expectedDocumentStart => bytes "did not find expected <document start>"
  | .duplicateVersion => bytes "found duplicate %YAML directive"
  | .incompatibleVersion => bytes "found incompatible YAML document"
  | .duplicateTagHandle => bytes "found duplicate %TAG directive"
  | .undefinedTagHandle => bytes "found undefined tag handle"
  | .expectedContent => bytes "did not find expected node content"
  | .expectedDash => bytes "did not find expected '-' indicator"
  | .expectedKey => bytes "did not find expected key"
  | .expectedCommaOrBracket => bytes "did not find expected ',' or ']'"
  | .expectedCommaOrBrace => bytes "did not find expected ',' or '\x7d'"
  | .unknownAnchor name => bytes "unknown anchor '" ++ name ++ bytes "' referenced"
  | .anchorContainsItself name => bytes "anchor '" ++ name ++ bytes "' value contains itself"
  | .excessiveAliasing => bytes "document contains excessive aliasing"
  | .badBase64 => bytes "!!binary value contains invalid base64 data"
  | .badMerge => bytes "map merge requires map or sequence of maps as the value"
  | .badMapKey key => bytes "invalid map key: " ++ key.renderTyped
  | .cannotDecode found text wanted =>
    bytes "cannot decode " ++ found ++ bytes " `" ++ text ++ bytes "` as a " ++ wanted

/-- A cause and the line it is reported on; line zero is not shown. -/
structure Fault where
  line : Nat := 0
  cause : Cause

/-- The wording of a fault. -/
def Fault.message (f : Fault) : Bytes :=
  bytes "yaml: "
    ++ (if f.line = 0 then [] else bytes "line " ++ natBytes f.line ++ bytes ": ")
    ++ f.cause.message

end ScriptLint.Yaml
