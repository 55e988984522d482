import PklAnalysis.Standard.Signature

/-!
# The classes of the standard library

The declarations of `pkl:base` that the analysis knows: its classes, the aliases for integer ranges
and the functions and constants of the module itself.
-/

namespace PklAnalysis.Standard

namespace Table

/-- A class without type arguments. -/
def simple (name : String) : SigType := .named name []

/-- A class with type arguments. -/
def generic (name : String) (args : List SigType) : SigType := .named name args

def any : SigType := simple "Any"
def boolean : SigType := simple "Boolean"
def number : SigType := simple "Number"
def int : SigType := simple "Int"
def float : SigType := simple "Float"
def string : SigType := simple "String"
def duration : SigType := simple "Duration"
def dataSize : SigType := simple "DataSize"
def regex : SigType := simple "Regex"
def object : SigType := simple "Object"
def dynamic : SigType := simple "Dynamic"
def typed : SigType := simple "Typed"
def module : SigType := simple "Module"
def element : SigType := simple "Element"
def key : SigType := simple "Key"
def value : SigType := simple "Value"
def result : SigType := simple "Result"

def external : List Modifier := [.externalKw]
def abstractExternal : List Modifier := [.abstractKw, .externalKw]
def openExternal : List Modifier := [.openKw, .externalKw]

/-- The classes in declaration order. -/
def classes : List ClassSignature := [
  { modifiers := abstractExternal,
    name := "Any",
    members := [
      .method "getClass" [] [] (simple "Class"),
      .method "toString" [] [] string] },
  { modifiers := external,
    name := "Null",
    superclass := some any },
  { modifiers := external,
    name := "Boolean",
    superclass := some any,
    members := [
      .method "xor" [] [("other", boolean)] boolean,
      .method "implies" [] [("other", boolean)] boolean] },
  { modifiers := abstractExternal,
    name := "Number",
    superclass := some any,
    members := [
      .property "isPositive" boolean,
      .property "isNonZero" boolean,
      .property "isFinite" boolean,
      .property "isInfinite" boolean,
      .property "isNaN" boolean,
      .property "abs" number,
      .property "sign" number,
      .method "isBetween" [] [("start", number), ("inclusiveEnd", number)] boolean,
      .method "toInt" [] [] int,
      .method "toFloat" [] [] float,
      .method "toString" [] [] string] },
  { modifiers := external,
    name := "Int",
    superclass := some number,
    members := [
      .property "isEven" boolean,
      .property "isOdd" boolean,
      .property "abs" int,
      .property "sign" int,
      .method "toChar" [] [] string] },
  { modifiers := external,
    name := "Float",
    superclass := some number,
    members := [
      .property "abs" float,
      .property "sign" float,
      .method "round" [] [] float] },
  { modifiers := external,
    name := "String",
    superclass := some any,
    members := [
      .property "length" int,
      .property "isEmpty" boolean,
      .property "isBlank" boolean,
      .property "isRegex" boolean,
      .property "chars" (generic "List" [string]),
      .method "startsWith" [] [("pattern", string)] boolean,
      .method "endsWith" [] [("pattern", string)] boolean,
      .method "contains" [] [("pattern", string)] boolean,
      .method "matches" [] [("regex", regex)] boolean,
      .method "toUpperCase" [] [] string,
      .method "toLowerCase" [] [] string,
      .method "trim" [] [] string,
      .method "reverse" [] [] string,
      .method "repeat" [] [("count", int)] string,
      .method "split" [] [("pattern", string)] (generic "List" [string]),
      .method "replaceAll" [] [("pattern", string), ("replacement", string)] string,
      .method "toInt" [] [] int,
      .method "toIntOrNull" [] [] (.nullable int)] },
  { modifiers := external,
    name := "Duration",
    superclass := some any,
    members := [
      .property "value" number,
      .property "unit" string,
      .property "isPositive" boolean] },
  { modifiers := external,
    name := "DataSize",
    superclass := some any,
    members := [
      .property "value" number,
      .property "unit" string,
      .property "isPositive" boolean] },
  { modifiers := abstractExternal,
    name := "Object",
    superclass := some any },
  { modifiers := external,
    name := "Dynamic",
    superclass := some object,
    members := [
      .method "hasProperty" [] [("name", string)] boolean,
      .method "getProperty" [] [("name", string)] .unknown,
      .method "getPropertyOrNull" [] [("name", string)] .unknown,
      .method "toMap" [] [] (generic "Map" [.unknown, .unknown]),
      .method "toList" [] [] (generic "List" [.unknown])] },
  { modifiers := abstractExternal,
    name := "Typed",
    superclass := some object,
    members := [
      .method "hasProperty" [] [("name", string)] boolean,
      .method "toDynamic" [] [] dynamic,
      .method "toMap" [] [] (generic "Map" [string, .unknown])] },
  { modifiers := abstractExternal,
    name := "Module",
    superclass := some typed,
    members := [
      .method "relativePathTo" [] [("other", module)] (generic "List" [string])] },
  { modifiers := external,
    name := "Listing",
    typeParams := [("Element", .covariant)],
    superclass := some object,
    members := [
      .property "length" int,
      .property "isEmpty" boolean,
      .property "isDistinct" boolean,
      .property "default" (.function [int] element),
      .method "toList" [] [] (generic "List" [element]),
      .method "toSet" [] [] (generic "Set" [element]),
      .method "join" [] [("separator", string)] string] },
  { modifiers := external,
    name := "Mapping",
    typeParams := [("Key", .covariant), ("Value", .covariant)],
    superclass := some object,
    members := [
      .property "length" int,
      .property "isEmpty" boolean,
      .property "keys" (generic "Set" [key]),
      .property "default" (.function [key] value),
      .method "containsKey" [] [("key", any)] boolean,
      .method "getOrNull" [] [("key", any)] (.nullable value),
      .method "fold" ["Result"] [("initial", result), ("operator", .function [result, key, value]
          result)] result,
      .method "toMap" [] [] (generic "Map" [key, value])] },
  { modifiers := abstractExternal,
    name := "Collection",
    typeParams := [("Element", .covariant)],
    superclass := some any,
    members := [
      .property "length" int,
      .property "isEmpty" boolean,
      .property "first" element,
      .property "firstOrNull" (.nullable element),
      .property "last" element,
      .method "contains" [] [("element", any)] boolean,
      .method "map" ["Result"] [("transform", .function [element] result)] (generic "Collection"
          [result]),
      .method "filter" [] [("predicate", .function [element] boolean)] (generic "Collection"
          [element]),
      .method "fold" ["Result"] [("initial", result), ("operator", .function [result, element]
          result)] result,
      .method "any" [] [("predicate", .function [element] boolean)] boolean,
      .method "every" [] [("predicate", .function [element] boolean)] boolean,
      .method "join" [] [("separator", string)] string,
      .method "toList" [] [] (generic "List" [element]),
      .method "toSet" [] [] (generic "Set" [element]),
      .method "toListing" [] [] (generic "Listing" [element])] },
  { modifiers := external,
    name := "List",
    typeParams := [("Element", .covariant)],
    superclass := some (generic "Collection" [element]),
    members := [
      .method "map" ["Result"] [("transform", .function [element] result)] (generic "List"
          [result]),
      .method "filter" [] [("predicate", .function [element] boolean)] (generic "List" [element]),
      .method "sortWith" [] [("comparator", .function [element, element] boolean)] (generic "List"
          [element]),
      .method "getOrNull" [] [("index", int)] (.nullable element)] },
  { modifiers := external,
    name := "Set",
    typeParams := [("Element", .covariant)],
    superclass := some (generic "Collection" [element]),
    members := [
      .method "map" ["Result"] [("transform", .function [element] result)] (generic "Set" [result]),
      .method "filter" [] [("predicate", .function [element] boolean)] (generic "Set" [element])] },
  { modifiers := external,
    name := "Map",
    typeParams := [("Key", .covariant), ("Value", .covariant)],
    superclass := some any,
    members := [
      .property "length" int,
      .property "isEmpty" boolean,
      .property "keys" (generic "Set" [key]),
      .property "values" (generic "List" [value]),
      .method "containsKey" [] [("key", any)] boolean,
      .method "getOrNull" [] [("key", any)] (.nullable value),
      .method "fold" ["Result"] [("initial", result), ("operator", .function [result, key, value]
          result)] result,
      .method "filter" [] [("predicate", .function [key, value] boolean)] (generic "Map" [key,
          value]),
      .method "map" ["NewKey", "NewValue"] [("transform", .function [key, value] (generic "Pair"
          [simple "NewKey", simple "NewValue"]))] (generic "Map" [simple "NewKey", simple
          "NewValue"]),
      .method "toMapping" [] [] (generic "Mapping" [key, value])] },
  { modifiers := abstractExternal,
    name := "Function",
    typeParams := [("Result", .covariant)],
    superclass := some any },
  { modifiers := external,
    name := "Function0",
    typeParams := [("Result", .covariant)],
    superclass := some (generic "Function" [result]),
    members := [
      .method "apply" [] [] result] },
  { modifiers := external,
    name := "Function1",
    typeParams := [("A1", .contravariant), ("Result", .covariant)],
    superclass := some (generic "Function" [result]),
    members := [
      .method "apply" [] [("p1", simple "A1")] result] },
  { modifiers := external,
    name := "Function2",
    typeParams := [("A1", .contravariant), ("A2", .contravariant), ("Result", .covariant)],
    superclass := some (generic "Function" [result]),
    members := [
      .method "apply" [] [("p1", simple "A1"), ("p2", simple "A2")] result] },
  { modifiers := external,
    name := "Function3",
    typeParams := [("A1", .contravariant), ("A2", .contravariant), ("A3", .contravariant),
        ("Result", .covariant)],
    superclass := some (generic "Function" [result]),
    members := [
      .method "apply" [] [("p1", simple "A1"), ("p2", simple "A2"), ("p3", simple "A3")] result] },
  { modifiers := external,
    name := "Function4",
    typeParams := [("A1", .contravariant), ("A2", .contravariant), ("A3", .contravariant), ("A4",
        .contravariant), ("Result", .covariant)],
    superclass := some (generic "Function" [result]),
    members := [
      .method "apply" [] [("p1", simple "A1"), ("p2", simple "A2"), ("p3", simple "A3"), ("p4",
          simple "A4")] result] },
  { modifiers := external,
    name := "Function5",
    typeParams := [("A1", .contravariant), ("A2", .contravariant), ("A3", .contravariant), ("A4",
        .contravariant), ("A5", .contravariant), ("Result", .covariant)],
    superclass := some (generic "Function" [result]),
    members := [
      .method "apply" [] [("p1", simple "A1"), ("p2", simple "A2"), ("p3", simple "A3"), ("p4",
          simple "A4"), ("p5", simple "A5")] result] },
  { modifiers := external,
    name := "Pair",
    typeParams := [("First", .covariant), ("Second", .covariant)],
    superclass := some any,
    members := [
      .property "first" (simple "First"),
      .property "second" (simple "Second"),
      .property "key" (simple "First"),
      .property "value" (simple "Second")] },
  { modifiers := external,
    name := "Regex",
    superclass := some any,
    members := [
      .property "pattern" string,
      .method "findMatchesIn" [] [("input", string)] (generic "List" [string])] },
  { modifiers := external,
    name := "IntSeq",
    superclass := some any,
    members := [
      .property "start" int,
      .property "end" int,
      .property "step" int,
      .method "toList" [] [] (generic "List" [int])] },
  { modifiers := external,
    name := "Class",
    typeParams := [("Type", .covariant)],
    superclass := some any,
    members := [
      .property "simpleName" string] },
  { modifiers := external,
    name := "TypeAlias",
    superclass := some any },
  { modifiers := openExternal,
    name := "ModuleOutput",
    superclass := some typed,
    members := [
      .property "text" string,
      .property "value" any] }]

/-- The integer aliases: a name with the least and the greatest value. -/
def ranges : List (String × Int64 × Int64) := [
  ("Int8", -128, 127),
  ("Int16", -32768, 32767),
  ("Int32", -2147483648, 2147483647),
  ("UInt8", 0, 255),
  ("UInt16", 0, 65535),
  ("UInt32", 0, 4294967295)]

/-- The properties and functions of the module. -/
def moduleMembers : List Member := [
  .property "NaN" float,
  .property "Infinity" float,
  .method "Regex" [] [("pattern", string)] regex,
  .method "Pair" ["First", "Second"] [("first", simple "First"), ("second", simple "Second")]
      (generic "Pair" [simple "First", simple "Second"]),
  .method "IntSeq" [] [("start", int), ("end", int)] (simple "IntSeq"),
  .method "List" ["Element"] [("element", element)] (generic "List" [element]),
  .method "Set" ["Element"] [("element", element)] (generic "Set" [element]),
  .method "Map" ["Key", "Value"] [("key", key), ("value", value)] (generic "Map" [key, value])]

end Table

end PklAnalysis.Standard
