import ClassNest.Fault

/-!
# Call sites

A call site that makes an instance of a functional interface, and what is known of it once its reference
kind has been checked.
-/
namespace ClassNest

/-- The kind of reference that a method handle holds. -/
inductive InvocationKind where
  | getField | getStatic | putField | putStatic | invokeVirtual | invokeStatic | invokeSpecial
  | newInvokeSpecial | invokeInterface
deriving DecidableEq, Inhabited

namespace InvocationKind

/-- The kinds in the order of their codes, which count from one. -/
def all : List InvocationKind :=
  [.getField, .getStatic, .putField, .putStatic, .invokeVirtual, .invokeStatic, .invokeSpecial,
   .newInvokeSpecial, .invokeInterface]

def code : InvocationKind → UInt8
  | .getField => 1
  | .getStatic => 2
  | .putField => 3
  | .putStatic => 4
  | .invokeVirtual => 5
  | .invokeStatic => 6
  | .invokeSpecial => 7
  | .newInvokeSpecial => 8
  | .invokeInterface => 9

/-- The kind with the given code. -/
def ofCode (code : UInt8) : Except Fault InvocationKind :=
  match all.find? (·.code == code) with
  | some kind => .ok kind
  | none => .error ⟨.referenceKind code, none⟩

def text : InvocationKind → String
  | .getField => "get_field"
  | .getStatic => "get_static"
  | .putField => "put_field"
  | .putStatic => "put_static"
  | .invokeVirtual => "invoke_virtual"
  | .invokeStatic => "invoke_static"
  | .invokeSpecial => "invoke_special"
  | .newInvokeSpecial => "new_invoke_special"
  | .invokeInterface => "invoke_interface"

end InvocationKind

/-- A call site as it was read; its reference kind is still a plain code. -/
structure CallSite where
  declaringClass : String
  contentClass : String
  contentMethod : String
  contentDescriptor : String
  invocationKind : UInt8
  interfaceName : String
  interfaceMethod : String
  interfaceDescriptor : String
deriving DecidableEq, Inhabited

/-- What a lambda node says about its call site. -/
structure LambdaInfo where
  declaringClass : String
  interfaceName : String
  interfaceMethod : String
  interfaceDescriptor : String
  contentClass : String
  contentMethod : String
  contentDescriptor : String
  invocationKind : InvocationKind
  contentMethodKey : String
  isMethodReference : Bool
  isStaticContent : Bool
deriving DecidableEq, Inhabited

/-- The description of a checked call site. -/
def LambdaInfo.ofSite (s : CallSite) (kind : InvocationKind) (isMethodReference : Bool) : LambdaInfo where
  declaringClass := s.declaringClass
  interfaceName := s.interfaceName
  interfaceMethod := s.interfaceMethod
  interfaceDescriptor := s.interfaceDescriptor
  contentClass := s.contentClass
  contentMethod := s.contentMethod
  contentDescriptor := s.contentDescriptor
  invocationKind := kind
  contentMethodKey := methodKey s.contentMethod s.contentDescriptor
  isMethodReference := isMethodReference
  isStaticContent := kind == .invokeStatic

end ClassNest
