import FluentGen.Dictionary
import FluentGen.Emit.Channel
import FluentGen.Text.Basic

/-!
The layouts of the generated files. A layout walks a dictionary; the code of the builders, which
the dictionary holds, is put in as it is.
-/

namespace FluentGen.Layout

/-- The first line of every generated file. -/
def banner : String := "// Automatically generated by proto_builder. DO NOT EDIT!"

/-- The include lines of a section. -/
def includeLines (d : Dictionary) (name : String) : List String :=
  (d.sections 0 name).map fun i => d.value i "INCLUDE"

/-- The lines that open the namespaces of a section. -/
def openNamespaces (d : Dictionary) (name : String) : List String :=
  (d.sections 0 name).map fun i => "namespace " ++ d.value i "NAMESPACE" ++ " \x7b"

/-- The lines that close the namespaces of a section. -/
def closeNamespaces (d : Dictionary) (name : String) : List String :=
  (d.sections 0 name).map fun i => "\x7d  // namespace " ++ d.value i "NAMESPACE"

/-- The base classes of a builder: the given ones, or its interface if there is one. -/
def baseClasses (d : Dictionary) (builder : Nat) : String :=
  let given := d.value builder "BASE_CLASSES"
  if given.isEmpty && !(d.value builder "INTERFACE_FILE").isEmpty then
    " : public " ++ d.value builder "INTERFACE_NAME"
  else given

/-- The methods around the status. -/
def statusMethods (d : Dictionary) (builder : Nat) : List String :=
  match d.sections builder "USE_STATUS" with
  | [] => []
  | i :: _ =>
    let get := d.value i
    [ "",
      "  const " ++ get "%Status" ++ "& status() const \x7b return status_; \x7d",
      "",
      "  " ++ get "CLASS_NAME" ++ "& UpdateStatus(",
      "      " ++ get "%Status+param" ++ ",",
      "      " ++ get "%LogSourceLocation+param=value" ++ ") \x7b",
      "    static_cast<void>(" ++ get "%LogSourceLocation%param" ++ ");",
      "    status_.Update(" ++ get "%Status%param" ++ ");",
      "    return *this;",
      "  \x7d",
      "",
      "  " ++ get "%StatusOr" ++ "<" ++ get "PROTO_TYPE" ++ "> MaybeGetRawData() const& \x7b",
      "    if (!status_.ok()) \x7b",
      "      return status_;",
      "    \x7d",
      "    return " ++ get "ROOT_DATA" ++ ";",
      "  \x7d",
      "",
      "  " ++ get "%StatusOr" ++ "<" ++ get "PROTO_TYPE" ++ "> MaybeGetRawData() && \x7b",
      "    if (!status_.ok()) \x7b",
      "      return std::move(status_);",
      "    \x7d",
      "    return std::move(" ++ get "ROOT_DATA" ++ ");",
      "  \x7d"]

/-- The methods that end the building, for one section that asks for them. -/
def buildMethods (d : Dictionary) (i : Nat) : List String :=
  let get := d.value i
  let validate :=
    if (get "VALIDATE_DATA").isEmpty then [] else ["    " ++ get "VALIDATE_DATA"]
  let type := get "%StatusOr" ++ "<" ++ get "PROTO_TYPE" ++ ">"
  ["", "  " ++ type ++ " Build() & \x7b"] ++ validate
    ++ ["    return MaybeGetRawData();", "  \x7d", "", "  " ++ type ++ " Build() && \x7b"]
    ++ validate ++ ["    return std::move(*this).MaybeGetRawData();", "  \x7d"]

/-- The method that validates the data, for one section that asks for it. -/
def validateMethod (d : Dictionary) (i : Nat) : List String :=
  [ "",
    "  void ValidateData() \x7b",
    "    if (status_.ok()) \x7b",
    "      UpdateStatus(" ++ d.value i "%Validate%value" ++ ");",
    "    \x7d",
    "  \x7d"]

/-- The conversions into the message, for one section that asks for them. -/
def conversionMethods (d : Dictionary) (i : Nat) : List String :=
  let type := d.value i "PROTO_TYPE"
  let data := d.value i "ROOT_DATA"
  [ "",
    "  operator const " ++ type ++ "&() const& \x7b return " ++ data ++ "; \x7d",
    "  operator " ++ type ++ "() && \x7b return std::move(" ++ data ++ "); \x7d"]

/-- The member that keeps the status, for one section that asks for it. -/
def statusMember (d : Dictionary) (i : Nat) : String :=
  "  " ++ d.value i "%Status" ++ " status_ = " ++ d.value i "%Status%value" ++ ";"

/-- The class of a builder. -/
def builderClass (d : Dictionary) (builder : Nat) : List String :=
  let get := d.value builder
  let name := get "CLASS_NAME"
  let type := get "PROTO_TYPE"
  let data := get "ROOT_DATA"
  [ "",
    "class " ++ name ++ baseClasses d builder ++ " \x7b",
    " public:",
    "  " ++ name ++ "() = default;",
    "  explicit " ++ name ++ "(const " ++ type ++ "& data) : data_(data) \x7b\x7d",
    "  explicit " ++ name ++ "(" ++ type ++ "&& data) : data_(std::move(data)) \x7b\x7d",
    "",
    "  const " ++ type ++ "& data() const& \x7b return " ++ data ++ "; \x7d",
    "  " ++ type ++ "&& data() && \x7b return std::move(" ++ data ++ "); \x7d"]
    ++ statusMethods d builder
    ++ (d.sections builder "USE_BUILD").flatMap (buildMethods d)
    ++ (d.sections builder "USE_VALIDATOR").flatMap (validateMethod d)
    ++ (d.sections builder "USE_CONVERSION").flatMap (conversionMethods d)
    ++ ["", get "GENERATED_HEADER_CODE", "", " private:", "  " ++ type ++ " data_;"]
    ++ (d.sections builder "USE_STATUS").map (statusMember d)
    ++ ["\x7d;"]

/-- The interface of a builder. -/
def interfaceClass (d : Dictionary) (builder : Nat) : List String :=
  let interface := d.value builder "INTERFACE_NAME"
  [ "",
    "class " ++ d.value builder "CLASS_NAME" ++ ";",
    "",
    "class " ++ interface ++ " \x7b",
    " public:",
    "  virtual ~" ++ interface ++ "() = default;",
    "",
    d.value builder "GENERATED_INTERFACE_CODE",
    "\x7d;"]

/-- A guarded header with includes and one class for each builder. -/
def guarded (d : Dictionary) (guard includes : String) (classOf : Nat → List String) :
    List String :=
  [banner, "#ifndef " ++ guard, "#define " ++ guard, ""]
    ++ includeLines d includes
    ++ [""]
    ++ openNamespaces d "ALL_NAMESPACES"
    ++ (d.sections 0 "BUILDER").flatMap classOf
    ++ [""]
    ++ closeNamespaces d "ALL_NAMESPACES"
    ++ ["", "#endif  // " ++ guard]

/-- The source file. -/
def source (d : Dictionary) : List String :=
  [banner, "#include \"" ++ d.value 0 "HEADER_FILE" ++ "\"", ""]
    ++ includeLines d "SOURCE_INCLUDES"
    ++ [""]
    ++ openNamespaces d "NAMESPACES"
    ++ (d.sections 0 "BUILDER").flatMap (fun i => ["", d.value i "GENERATED_SOURCE_CODE"])
    ++ [""]
    ++ closeNamespaces d "NAMESPACES_END"

/-- The parts of the file for a channel, some of which may have several lines. -/
def parts (d : Dictionary) : Channel → List String
  | .header => guarded d (d.value 0 "HEADER_GUARD") "HEADER_INCLUDES" (builderClass d)
  | .source => source d
  | .interface => guarded d (d.value 0 "INTERFACE_GUARD") "INTERFACE_INCLUDES" (interfaceClass d)

/-- The text of the file for a channel. -/
def render (d : Dictionary) (c : Channel) : String :=
  Text.unlines (parts d c)

end FluentGen.Layout
