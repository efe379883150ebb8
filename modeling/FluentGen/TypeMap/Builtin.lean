import FluentGen.Options.Basic

/-!
The type map that every run starts from.

A key that begins with `@` can be asked for by an annotation, one that begins with `%` is used by
the generated code itself, and one that begins with `=` applies to every field of its type.
-/

namespace FluentGen.TypeMap.Builtin

/-- Where string views are declared. -/
def stringViewHeader : String := "absl/strings/string_view.h"

/-- Where times and durations are declared. -/
def timeHeader : String := "absl/time/time.h"

/-- Text that is stored as it is. -/
def text : FieldOptions where
  type := "std::string"
  includes := ["<string>"]

/-- A message that is given in the text format. -/
def textMessage : FieldOptions where
  type := "absl::string_view"
  conversion := "proto_builder::oss::ParseTextOrDie<@type@>(@value@)"
  includes := [stringViewHeader, "proto_builder/oss/parse_text_proto.h"]
  dependencies := ["//proto_builder/oss:parse_text_proto"]

/-- A duration that is stored as a number by a conversion function. -/
def durationAs (function : String) : FieldOptions where
  type := "absl::Duration"
  decoratedType := "absl::Duration"
  conversion := function ++ "(@value@)"
  includes := [timeHeader]

/-- A time or a duration that is stored as a message, unless it is out of range. -/
def convertedTime (type : String) : FieldOptions where
  type := type
  decoratedType := type
  conversion := "*proto_builder::oss::ConvertToProto(@value@)"
  predicate := "proto_builder::oss::ConvertToProto(@value@).status()"
  includes := [timeHeader, "proto_builder/oss/proto_conversion_helpers.h"]
  dependencies := ["//proto_builder/oss:proto_conversion_helpers"]

/-- The place in the code that calls a method. -/
def sourceLocation : FieldOptions where
  type := "proto_builder::oss::SourceLocation"
  value := "proto_builder::oss::SourceLocation::current()"
  includes := ["proto_builder/oss/source_location.h"]

/-- The entries, in groups of their kind. -/
def entries : List (String × FieldOptions) := [
  ("string", text),
  ("bytes", text),
  ("@absl::string_view",
    { type := "absl::string_view"
      conversion := "std::string(@value@)"
      includes := [stringViewHeader] }),
  ("@Map:absl::string_view",
    { type := "std::pair<absl::string_view, absl::string_view>"
      conversion := "@type@(std::string(@value@.first), std::string(@value@.second))"
      includes := ["<utility>", stringViewHeader] }),
  ("@TextProto", textMessage),
  ("@TextProto:absl::string_view", textMessage),
  ("@TextProto:Map:Value:absl::string_view",
    { textMessage with
      type := "std::pair<std::string, absl::string_view>"
      conversion := "@type@(@value@.first, "
        ++ "proto_builder::oss::ParseTextOrDie<@type@::second_type>(@value@.second))"
      includes := ["<string>", "<utility>"] ++ textMessage.includes }),
  ("@ToInt64Seconds", durationAs "absl::ToInt64Seconds"),
  ("@ToInt64Milliseconds", durationAs "absl::ToInt64Milliseconds"),
  ("@ToDoubleSeconds", durationAs "absl::ToDoubleSeconds"),
  ("@ToDoubleMilliseconds", durationAs "absl::ToDoubleMilliseconds"),
  ("@ToProtoDuration", convertedTime "absl::Duration"),
  ("@ToProtoTimestamp", convertedTime "absl::Time"),
  ("%SourceLocation", sourceLocation),
  ("%LogSourceLocation", sourceLocation),
  ("%Status",
    { type := "absl::Status"
      value := "absl::OkStatus()"
      includes := ["absl/status/status.h"] }),
  ("%StatusOr",
    { type := "absl::StatusOr"
      includes := ["absl/status/statusor.h"] }),
  ("%Validate",
    { type := "absl::Status"
      value := "Validate(data_)"
      includes := ["absl/status/status.h"] }),
  ("=google.protobuf.Duration",
    { convertedTime "absl::Duration" with automatic := true }),
  ("=google.protobuf.Timestamp",
    { convertedTime "absl::Time" with automatic := true })]

end FluentGen.TypeMap.Builtin

/-- The type map that every run starts from. -/
def FluentGen.TypeMap.builtin : TypeMap := KeyMap.ofList TypeMap.Builtin.entries
