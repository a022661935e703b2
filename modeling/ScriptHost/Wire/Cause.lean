import ScriptHost.MsgPack.Reader
import ScriptHost.Text.Quoted
import ScriptHost.Ty.Notation
import ScriptHost.Wire.Path

set_option autoImplicit false

namespace ScriptHost.Wire

/-- Why a payload holds no value of a type. -/
inductive DecodeCause where
  | binaryDocument (fault : MsgPack.Fault)
  | textDocument (error : Json.ParseError)
  | trailing (count : Nat)
  | required (ty : Ty) (found : String)
  | tupleLength (expected found : Nat)
  | keyNotText (ty : Ty) (key : MsgPack)
  | unsupportedAttribute (name : String)
  | missingAttribute (name : String)
  | notAPair
  | typeNotBytes
  | type (fault : Ty.Fault)
  | dynamicType
  | missingField
  | malformed (found : String)
  | notANumber (text : String)

def DecodeCause.message : DecodeCause → String
  | binaryDocument fault => fault.message
  | textDocument error => error.message
  | trailing count => toString count ++ " trailing bytes after value"
  | required ty found => ty.describe ++ " required, got " ++ found
  | tupleLength expected found =>
      "tuple of " ++ toString expected ++ " elements carries " ++ toString found
  | keyNotText ty key => ty.describe ++ " key must be a string, got " ++ key.describe
  | unsupportedAttribute name => "unsupported attribute " ++ quote name
  | missingAttribute name => "missing attribute " ++ quote name
  | notAPair => "malformed dynamic value, expected [type, value]"
  | typeNotBytes => "dynamic value type must be JSON bytes"
  | type fault => fault.message
  | dynamicType => "dynamic value cannot declare type dynamic"
  | missingField => "dynamic value needs \"type\" and \"value\" fields"
  | malformed found => "malformed dynamic value, got " ++ found
  | notANumber text => quote text ++ " is not a number"

/-- Why a value cannot be written under a type. -/
inductive EncodeCause where
  | notANumber
  | notFinite (x : Binary64)
  | notKnown
  | extraAttribute (name : String) (ty : Ty)
  | mismatch (kind : String) (ty : Ty)

def EncodeCause.message : EncodeCause → String
  | notANumber => "NaN is not a valid number"
  | notFinite x => x.plainText ++ " cannot be represented in JSON"
  | notKnown => "value is not known"
  | extraAttribute name ty => "attribute " ++ quote name ++ " is not part of " ++ ty.describe
  | mismatch kind ty => kind ++ " value does not conform to type " ++ ty.describe

abbrev Decoded (α : Type) := Except (Located DecodeCause) α

abbrev Encoded (α : Type) := Except (Located EncodeCause) α

end ScriptHost.Wire
