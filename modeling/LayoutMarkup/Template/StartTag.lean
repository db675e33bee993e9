import LayoutMarkup.Call.Read
import LayoutMarkup.Template.Node

/-! Reading start tags: attributes up to `>` or `/>`. A value is quoted, and may then hold mustaches
between its literal stretches, or it is a lone mustache, or it goes on to the next blank. -/

namespace LayoutMarkup

def isTagChar (c : Char) : Bool :=
  Unicode.isAlphanumeric c || ['-', '_', ':', '.', '@'].contains c

def isAttributeNameChar (c : Char) : Bool :=
  !(Unicode.isBlank c || ['=', '>', '/', '"', '\'', '<', '{', '}'].contains c)

/-- The characters of an unquoted value. -/
def isBareValueChar (c : Char) : Bool := !Unicode.isBlank c && c ≠ '>' && c ≠ '/'

/-- Whether a text begins with the braces of a mustache. -/
def startsMustache (text : List Char) : Bool := ['{', '{'].isPrefixOf text

/-- The literal text before the closing quote or the next mustache. -/
def literalStretch (quote : Char) : List Char → List Char
  | [] => []
  | c :: rest =>
    if c = quote || startsMustache (c :: rest) then [] else c :: literalStretch quote rest

/-- A stretch of literal text as a part of a value; an empty one is none. -/
def Part.ofStretch (stretch : List Char) (span : Span) : List Part :=
  if stretch.isEmpty then [] else [.text ⟨String.ofList stretch, span⟩]

namespace Cursor

/-- Read the parts of a quoted value up to its closing quote. -/
def readParts (cursor : Cursor) (quote : Char) : Except Fault (List Part × Cursor) :=
  let stretch := literalStretch quote cursor.rest
  let behind := cursor.skip stretch.length
  let literal := Part.ofStretch stretch ⟨cursor.position, behind.position⟩
  match behind.peek? with
  | none => .error (behind.fault .unterminatedValue)
  | some c =>
    if c = quote then .ok (literal, behind)
    else
      match _step : behind.readMustache with
      | .error fault => .error fault
      | .ok (call, after) =>
        match readParts after quote with
        | .error fault => .error fault
        | .ok (parts, last) => .ok (literal ++ .mustache call :: parts, last)
termination_by cursor.rest.length
decreasing_by
  exact Nat.lt_of_lt_of_le (length_of_readMustache _step) (cursor.length_skip_le _)

theorem length_of_readParts {cursor last : Cursor} {quote : Char} {parts : List Part}
    (found : cursor.readParts quote = .ok (parts, last)) :
    last.rest.length ≤ cursor.rest.length := by
  fun_induction readParts cursor quote generalizing parts last with
  | case1 => cases found
  | case2 cursor stretch behind =>
    obtain ⟨-, rfl⟩ := Prod.mk.inj (Except.ok.inj found)
    exact cursor.length_skip_le _
  | case3 => cases found
  | case4 => cases found
  | case5 =>
    rename_i cursor stretch behind _ _ _ _ _ _ step _ _ rest ih
    obtain ⟨-, rfl⟩ := Prod.mk.inj (Except.ok.inj found)
    have shorter := length_of_readMustache step
    have kept := cursor.length_skip_le stretch.length
    exact Nat.le_trans (ih rest) (Nat.le_trans (Nat.le_of_lt shorter) kept)

/-- The value that quoted parts make up: text as long as there is no mustache among them. -/
def valueOfParts (parts : List Part) (span : Span) : AttributeValue :=
  match parts with
  | [] => .text ⟨"", span⟩
  | [.text literal] => .text ⟨literal.chars, span⟩
  | parts => .concat parts span

/-- Read the value behind the `=` of an attribute. -/
def readValue (cursor : Cursor) : Except Fault (AttributeValue × Cursor) :=
  if cursor.sees ['"'] || cursor.sees ['\''] then
    match (cursor.skip 1).readParts (cursor.peek?.getD '"') with
    | .error fault => .error fault
    | .ok (parts, last) =>
      let after := last.skip 1
      .ok (valueOfParts parts ⟨cursor.position, after.position⟩, after)
  else if startsMustache cursor.rest then
    match cursor.readMustache with
    | .error fault => .error fault
    | .ok (call, after) => .ok (.mustache call, after)
  else
    let chars := cursor.run isBareValueChar
    let after := cursor.skip chars.length
    .ok (.text ⟨String.ofList chars, cursor.position, after.position⟩, after)

def readAttribute (cursor : Cursor) : Except Fault (Attribute × Cursor) :=
  let name := cursor.run isAttributeNameChar
  if name.isEmpty then .error (cursor.fault (.unexpectedInStartTag (cursor.peek?.getD ' ')))
  else
    let behind := cursor.skip name.length
    match behind.eat? ['='] with
    | none =>
      let value := AttributeValue.text ⟨"", behind.position, behind.position⟩
      .ok (⟨String.ofList name, value, cursor.position, behind.position⟩, behind)
    | some front =>
      match front.readValue with
      | .error fault => .error fault
      | .ok (value, after) =>
        .ok (⟨String.ofList name, value, cursor.position, after.position⟩, after)

theorem length_of_readValue {cursor after : Cursor} {value : AttributeValue}
    (found : cursor.readValue = .ok (value, after)) :
    after.rest.length ≤ cursor.rest.length := by
  simp only [readValue] at found
  repeat' split at found
  · cases found
  · rename_i parts
    obtain ⟨-, rfl⟩ := Prod.mk.inj (Except.ok.inj found)
    exact Nat.le_trans (length_skip_le _ _)
      (Nat.le_trans (length_of_readParts parts) (length_skip_le _ _))
  · cases found
  · rename_i mustache
    obtain ⟨-, rfl⟩ := Prod.mk.inj (Except.ok.inj found)
    exact Nat.le_of_lt (length_of_readMustache mustache)
  · obtain ⟨-, rfl⟩ := Prod.mk.inj (Except.ok.inj found)
    exact length_skip_le _ _

theorem length_of_readAttribute {cursor after : Cursor} {attr : Attribute}
    (found : cursor.readAttribute = .ok (attr, after)) : after.rest.length < cursor.rest.length := by
  simp only [readAttribute] at found
  split at found
  · cases found
  · rename_i filled
    have named : 0 < (cursor.run isAttributeNameChar).length :=
      List.length_pos_iff.mpr (by simpa using filled)
    have within : (cursor.run isAttributeNameChar).length ≤ cursor.rest.length :=
      (List.takeWhile_prefix _).length_le
    have behind := cursor.length_skip (cursor.run isAttributeNameChar).length
    split at found
    · obtain ⟨-, rfl⟩ := Prod.mk.inj (Except.ok.inj found)
      omega
    · rename_i eaten
      have front := length_of_eat? eaten
      split at found
      · cases found
      · rename_i value
        obtain ⟨-, rfl⟩ := Prod.mk.inj (Except.ok.inj found)
        have after := length_of_readValue value
        omega

/-- Read attributes up to the end of a start tag; tells as well whether it closes its element. -/
def readAttributes (cursor : Cursor) (tag : String) :
    Except Fault (List Attribute × Bool × Cursor) :=
  let front := cursor.skipBlank
  if front.sees ['/', '>'] then .ok ([], true, front.skip 2)
  else if front.sees ['>'] then .ok ([], false, front.skip 1)
  else if front.atEnd then .error (front.fault (.unclosedStartTag tag))
  else
    match _step : front.readAttribute with
    | .error fault => .error fault
    | .ok (attr, after) =>
      match readAttributes after tag with
      | .error fault => .error fault
      | .ok (attrs, selfClosing, last) => .ok (attr :: attrs, selfClosing, last)
termination_by cursor.rest.length
decreasing_by exact Nat.lt_of_lt_of_le (length_of_readAttribute _step) cursor.length_skipBlank_le

theorem length_of_readAttributes {cursor last : Cursor} {tag : String} {attrs : List Attribute}
    {selfClosing : Bool} (found : cursor.readAttributes tag = .ok (attrs, selfClosing, last)) :
    last.rest.length ≤ cursor.rest.length := by
  fun_induction readAttributes cursor tag generalizing attrs selfClosing last with
  | case1 cursor front =>
    cases found
    exact Nat.le_trans (length_skip_le _ _) cursor.length_skipBlank_le
  | case2 cursor front =>
    cases found
    exact Nat.le_trans (length_skip_le _ _) cursor.length_skipBlank_le
  | case3 => cases found
  | case4 => cases found
  | case5 => cases found
  | case6 =>
    rename_i cursor _ _ _ _ _ _ step _ _ _ rest ih
    cases found
    exact Nat.le_trans (ih rest)
      (Nat.le_trans (Nat.le_of_lt (length_of_readAttribute step)) cursor.length_skipBlank_le)

end Cursor

end LayoutMarkup
