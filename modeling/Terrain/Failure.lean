import Terrain.Plane.Rectangle
import Terrain.Raster.Kind

/-!
# Failures

Two kinds of things go wrong. An `Error` is an answer to a bad script, a bad document or an exceeded
limit: it has a category and, where a script is to blame, a code and a source location. A `Breach`
is a broken internal invariant; it is a value here, so that statements about runs can say that none
arises.

* `Code`, `Fault`, `Error` — errors, with `Error.message`.
* `Breach` — broken invariants, with `Breach.message?` for those that have a text.
* `Failure` — either.
-/

namespace Terrain

/-- Position in the script source that an instruction was compiled from. -/
structure Location where
  line : Nat
  column : Nat
  deriving Repr, DecidableEq, Inhabited

namespace Location

def start : Location := ⟨0, 0⟩

def describe (location : Location) : String :=
  s!"line {location.line}, column {location.column}"

end Location

/-- Causes of script errors and of exceeded limits. Codes are grouped by hundreds: 14xx declarations,
21xx types and arguments, 22xx undefined names, 23xx arithmetic and ranges, 24xx outputs, 25xx
limits. -/
inductive Code where
  | incorrectMapSizeNumericValue
  | incorrectMetadataValueType
  | undefinedMetadataIdentifier
  | minGreaterThanMax
  | parameterTypeNotSpecified
  | incorrectParameterRestriction
  | reservedParameterName
  | incorrectParameterAttributeType
  | incorrectEnumParameterType
  | incorrectArgumentType
  | incorrectOperandType
  | incorrectNumberOfArguments
  | incorrectConditionType
  | incorrectCoordinateComponentType
  | nullReference
  | incorrectYieldType
  | readOnlyWrite
  | undefinedFunction
  | undefinedVariable
  | undefinedMemberVariable
  | variableAlreadyDefined
  | divisionByZero
  | numberOverflow
  | heightOverflow
  | coordinateOverflow
  | sizeOverflow
  | arrayKeyNotFound
  | invalidEnumValue
  | numberUnderflow
  | mathDefinitionRange
  | invalidStrength
  | nonpositiveWaveLength
  | nonpositiveAmplitude
  | emptyArray
  | invalidScale
  | nonInvertibleTransformation
  | mainMapNotGenerated
  | unsupportedMapName
  | renderingSequenceTooLong
  | callStackOverflow
  | codeBlockStackOverflow
  | objectStackOverflow
  | rendererMemoryLimit
  deriving Repr, DecidableEq

/-- The number a code is reported by. -/
def Code.number : Code → Nat
  | .incorrectMapSizeNumericValue => 1402
  | .incorrectMetadataValueType => 1403
  | .undefinedMetadataIdentifier => 1404
  | .minGreaterThanMax => 1405
  | .parameterTypeNotSpecified => 1406
  | .incorrectParameterRestriction => 1407
  | .reservedParameterName => 1408
  | .incorrectParameterAttributeType => 1409
  | .incorrectEnumParameterType => 1410
  | .incorrectArgumentType => 2101
  | .incorrectOperandType => 2102
  | .incorrectNumberOfArguments => 2103
  | .incorrectConditionType => 2104
  | .incorrectCoordinateComponentType => 2105
  | .nullReference => 2106
  | .incorrectYieldType => 2107
  | .readOnlyWrite => 2108
  | .undefinedFunction => 2201
  | .undefinedVariable => 2202
  | .undefinedMemberVariable => 2203
  | .variableAlreadyDefined => 2204
  | .divisionByZero => 2301
  | .numberOverflow => 2302
  | .heightOverflow => 2303
  | .coordinateOverflow => 2304
  | .sizeOverflow => 2305
  | .arrayKeyNotFound => 2306
  | .invalidEnumValue => 2307
  | .numberUnderflow => 2308
  | .mathDefinitionRange => 2309
  | .invalidStrength => 2310
  | .nonpositiveWaveLength => 2311
  | .nonpositiveAmplitude => 2312
  | .emptyArray => 2313
  | .invalidScale => 2314
  | .nonInvertibleTransformation => 2315
  | .mainMapNotGenerated => 2401
  | .unsupportedMapName => 2402
  | .renderingSequenceTooLong => 2501
  | .callStackOverflow => 2502
  | .codeBlockStackOverflow => 2503
  | .objectStackOverflow => 2504
  | .rendererMemoryLimit => 2505

/-- A coded cause at a place in the script source. -/
structure Fault where
  code : Code
  location : Location
  text : String
  deriving Repr, DecidableEq

def Fault.message (fault : Fault) : String :=
  s!"E{fault.code.number} at {fault.location.describe}: {fault.text}"

/-- What went wrong, by who is to blame. -/
inductive Error where
  /-- The script, while it runs or in what it declares. -/
  | script (fault : Fault)
  /-- A configured limit was exceeded. -/
  | resourceLimit (fault : Fault)
  /-- The instructions do not form a program. -/
  | intermediateCode (text : String)
  /-- An operation was asked for in the wrong state or on inputs that do not belong together. -/
  | apiUsage (text : String)
  /-- A document does not have the expected form. -/
  | malformed
  deriving Repr, DecidableEq

namespace Error

def message : Error → String
  | script fault => "script error: " ++ fault.message
  | resourceLimit fault => "resource limit exceeded: " ++ fault.message
  | intermediateCode text => "intermediate code error: " ++ text
  | apiUsage text => "api usage error: " ++ text
  | malformed => "serialization error"

end Error

/-! ## Shapes in messages -/

/-- Field-by-field text of an interval. -/
def Interval.fields (interval : Interval) : String :=
  s!"Interval \x7b start: {interval.start}, length: {interval.length} \x7d"

/-- Field-by-field text of a size. -/
def Size.fields (size : Size) : String :=
  s!"Size2D \x7b width: {size.width}, height: {size.height} \x7d"

/-- Field-by-field text of a point. -/
def Point.fields (point : Point) : String := s!"Point \x7b x: {point.x}, y: {point.y} \x7d"

/-- Field-by-field text of a rectangle. -/
def Rectangle.fields (rectangle : Rectangle) : String :=
  s!"Rectangle \x7b position: {rectangle.position.fields}, size: {rectangle.size.fields} \x7d"

/-! ## Broken invariants -/

/-- A broken invariant. -/
inductive Breach where
  /-- An id that names no object of the heap. -/
  | notRegistered (id : Nat)
  /-- One release too many. -/
  | noReference (id : Nat)
  /-- An object destroyed while something still refers to it. -/
  | liveReferences (id count : Nat)
  /-- An array operation on something else. -/
  | notAnArray (id : Nat) (typeName : String)
  /-- A second slot for one handle. -/
  | slotTaken (id : Nat)
  /-- A handle without a slot. -/
  | noSlot (id : Nat)
  /-- A slot read before it was filled or after it was freed. -/
  | emptySlot (slot : Nat)
  /-- A slot that holds a raster of the other kind. -/
  | wrongRaster (slot : Nat) (held : RasterKind)
  /-- Bounds of two kinds folded together. -/
  | mixedBounds (left right : String)
  /-- An interval where a rectangle is needed. -/
  | mapBoundsExpected (interval : Interval)
  /-- A rectangle where an interval is needed. -/
  | profileBoundsExpected (rectangle : Rectangle)
  /-- A step run on a raster of the wrong kind. -/
  | stepMismatch (step : String) (held : RasterKind)
  /-- A step that fills no slot where one that does is needed. -/
  | notCreator (step : String)
  /-- A step that reads an argument it does not have. -/
  | missingArgument
  /-- A sample outside the map. -/
  | outsideMap (x y : Int) (size : Size)
  /-- A sample outside the profile. -/
  | outsideProfile
  /-- Bounds of a clamp or of a draw in the wrong order. -/
  | boundsReversed
  /-- An intermediate left the range of its type. -/
  | overflow
  /-- A division by zero. -/
  | zeroDivisor
  /-- A recorded step that names a slot nobody reserved. -/
  | unreservedSlot
  deriving Repr, DecidableEq

namespace Breach

/-- The text of a breach, where it has one. -/
def message? : Breach → Option String
  | notRegistered id => some s!"object #{id} is not registered"
  | noReference id => some s!"object #{id} released without a reference"
  | liveReferences id count => some s!"object #{id} destroyed with {count} live references"
  | notAnArray id typeName => some s!"object #{id} is a {typeName}, not an array"
  | slotTaken id => some s!"object #{id} already owns a renderer slot"
  | noSlot id => some s!"object #{id} has no renderer slot"
  | emptySlot slot => some s!"renderer slot {slot} is empty"
  | wrongRaster slot held =>
    some s!"slot {slot} holds a {held.describe}, not a {held.other.describe}"
  | mixedBounds left right => some s!"cannot combine {left} with {right}"
  | mapBoundsExpected interval => some s!"expected map bounds, got interval {interval.fields}"
  | profileBoundsExpected rectangle =>
    some s!"expected profile bounds, got rectangle {rectangle.fields}"
  | stepMismatch step held => some s!"{step} cannot run on a {held.describe}"
  | notCreator step => some s!"{step} is not a creator"
  | outsideMap x y size => some s!"sample ({x}, {y}) outside {size.fields}"
  | unreservedSlot => some "step writes an unallocated slot"
  | missingArgument | outsideProfile | boundsReversed | overflow | zeroDivisor => none

end Breach

/-- An error or a broken invariant. -/
inductive Failure where
  | error (error : Error)
  | breach (breach : Breach)
  deriving Repr, DecidableEq

/-! ## Checked arithmetic -/

/-- A coordinate that must not leave the 32-bit range. -/
def checkCoordinate (value : Int) : Except Breach Coordinate :=
  if IsCoordinate value then .ok value else .error .overflow

/-- A divisor that must not be zero. -/
def checkDivisor (value : Nat) : Except Breach Nat :=
  if value = 0 then .error .zeroDivisor else .ok value

end Terrain
