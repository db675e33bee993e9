import LayoutMarkup.Lexeme.Basic

/-! Why a source text is not a template, and where this shows. -/

namespace LayoutMarkup

inductive Cause where
  | expectedText (text : List Char)
  | missingTerminator (terminator : List Char)
  | unclosedMustache
  | unexpectedCharacter (c : Char)
  | unterminatedString
  | unterminatedEscape
  | expectedPath (found : Lexeme)
  | expectedClose (found : Lexeme)
  | expectedExpression (found : Lexeme)
  | positionalAfterHash
  | unclosedStartTag (tag : String)
  | unexpectedInStartTag (c : Char)
  | unterminatedValue
  | mismatchedTag (found tag : String)
  | mismatchedBlock (found path : String)
  | unclosedElement
  | unclosedBlock
  | unexpectedClosingTag
  | unexpectedBlockClose
  | elseBlock
  | tripleStash
  /-- What a user of a cursor has to say about the place it reached. -/
  | remark (message : String)
deriving DecidableEq

namespace Cause

private def shown (text : List Char) : String := String.ofList (Quoted.text text)

private def shownChar (c : Char) : String := String.ofList (Quoted.char c)

def message : Cause → String
  | expectedText text => "expected " ++ shown text
  | missingTerminator terminator => "unterminated input, expected " ++ shown terminator
  | unclosedMustache => "unclosed mustache, expected \"\x7d\x7d\""
  | unexpectedCharacter c => "unexpected character " ++ shownChar c ++ " in expression"
  | unterminatedString => "unterminated string literal"
  | unterminatedEscape => "unterminated escape sequence"
  | expectedPath found => "expected a path, got " ++ found.describe
  | expectedClose found => "expected \"\x7d\x7d\", got " ++ found.describe
  | expectedExpression found => "expected an expression, got " ++ found.describe
  | positionalAfterHash => "positional params must come before hash arguments"
  | unclosedStartTag tag => "unclosed start tag <" ++ tag ++ ">"
  | unexpectedInStartTag c => "unexpected " ++ shownChar c ++ " in start tag"
  | unterminatedValue => "unterminated attribute value"
  | mismatchedTag found tag => "closing tag </" ++ found ++ "> does not match <" ++ tag ++ ">"
  | mismatchedBlock found path =>
    "\x7b\x7b/" ++ found ++ "\x7d\x7d does not match \x7b\x7b#" ++ path ++ "\x7d\x7d"
  | unclosedElement => "unclosed element, expected closing tag"
  | unclosedBlock => "unclosed block, expected \x7b\x7b/…\x7d\x7d"
  | unexpectedClosingTag => "unexpected closing tag"
  | unexpectedBlockClose => "unexpected block close"
  | elseBlock => "\x7b\x7belse\x7d\x7d blocks are not supported"
  | tripleStash => "triple-stash mustaches are not supported"
  | remark message => message

end Cause

structure Fault where
  cause : Cause
  position : Position
deriving DecidableEq

def Fault.message (fault : Fault) : String :=
  "template parse error at " ++ fault.position.render ++ ": " ++ fault.cause.message

end LayoutMarkup
