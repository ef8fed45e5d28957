import MessagingIdentity.Json.Basic

namespace MessagingIdentity

structure BuildInfo where
  version : String
  profile : String
  features : String
  timestamp : String
  compiler : String

namespace BuildInfo

def lines (b : BuildInfo) : List String :=
  ["version:  " ++ b.version, "profile:  " ++ b.profile, "features: " ++ b.features,
    "built:    " ++ b.timestamp, "rustc:    " ++ b.compiler]

def display (b : BuildInfo) : String := "\n".intercalate b.lines

def toJson (b : BuildInfo) : Json :=
  Json.ofMembers
    [("version", .text b.version), ("build_profile", .text b.profile),
      ("build_features", .text b.features), ("build_timestamp", .text b.timestamp),
      ("rust_version", .text b.compiler)]

end BuildInfo

end MessagingIdentity
