import HttpRouting.Config.Basic
import HttpRouting.Json.Fields
import HttpRouting.Json.Reader
import HttpRouting.Route.Spec

/-!
Settings, policies and route declarations in JSON.  What is not set is left out of policies and
declarations, and missing fields take their defaults.
-/

set_option autoImplicit false
set_option relaxedAutoImplicit false

namespace HttpRouting

/-- The numbers of unsigned words of 64 bits lie below this one. -/
def wordLimit : Nat := UInt64.size

namespace CorsConfig

/-- The fields of a policy in their order. -/
def fieldNames : List String :=
  ["allowed_origins", "allowed_origin_patterns", "allowed_methods", "allowed_headers",
    "exposed_headers", "allow_credentials", "max_age"]

/-- Read a policy; every field may be null or missing. -/
def ofJson? (json : Json) : Option CorsConfig := do
  let found ← json.found? fieldNames
  match found.fields with
  | [origins, patterns, methods, headers, exposed, credentials, age] =>
    let list := Json.optional false Json.strings?
    return {
      allowedOrigins := ← list origins
      allowedOriginPatterns := ← list patterns
      allowedMethods := ← list methods
      allowedHeaders := ← list headers
      exposedHeaders := ← list exposed
      allowCredentials := ← Json.optional false Json.bool? credentials
      maxAge := ← Json.optional false (Json.natBelow? wordLimit) age }
  | _ => none

/-- A named field, unless it is not set. -/
def setField {α : Type} (name : String) (encode : α → Json) : Option α → List (String × Json)
  | some value => [(name, encode value)]
  | none => []

/-- A policy in JSON. -/
def toJson (c : CorsConfig) : Json :=
  Json.ofFields
    (setField "allowed_origins" Json.ofStrings c.allowedOrigins
      ++ setField "allowed_origin_patterns" Json.ofStrings c.allowedOriginPatterns
      ++ setField "allowed_methods" Json.ofStrings c.allowedMethods
      ++ setField "allowed_headers" Json.ofStrings c.allowedHeaders
      ++ setField "exposed_headers" Json.ofStrings c.exposedHeaders
      ++ setField "allow_credentials" Json.bool c.allowCredentials
      ++ setField "max_age" Json.ofNat c.maxAge)

end CorsConfig

namespace RouteSpec

/-- The fields of a declaration in their order. -/
def fieldNames : List String :=
  ["paths", "methods", "params", "headers", "consumes", "produces", "name"]

/-- Read a declaration.  Missing lists are empty; only an array must bring the name too. -/
def ofJson? (json : Json) : Option RouteSpec := do
  let found ← json.found? fieldNames
  match found.fields with
  | [paths, methods, params, headers, consumes, produces, name] =>
    let list := Json.withDefault [] Json.strings?
    return {
      paths := ← list paths
      methods := ← list methods
      params := ← list params
      headers := ← list headers
      consumes := ← list consumes
      produces := ← list produces
      name := ← Json.optional found.complete Json.string? name }
  | _ => none

/-- A declaration in JSON. -/
def toJson (spec : RouteSpec) : Json :=
  Json.ofFields
    ([("paths", Json.ofStrings spec.paths), ("methods", Json.ofStrings spec.methods),
        ("params", Json.ofStrings spec.params), ("headers", Json.ofStrings spec.headers),
        ("consumes", Json.ofStrings spec.consumes), ("produces", Json.ofStrings spec.produces)]
      ++ CorsConfig.setField "name" Json.ofString spec.name)

end RouteSpec

namespace MappingConfig

/-- The fields of the settings in their order. -/
def fieldNames : List String :=
  ["use_trailing_slash_match", "remove_semicolon_content", "naming_strategy", "global_cors"]

/-- Read settings. -/
def ofJson? (json : Json) : Option MappingConfig := do
  let found ← json.found? fieldNames
  match found.fields with
  | [lenient, semicolons, naming, cors] =>
    return {
      lenientTrailingSlash :=
        ← Json.withDefault standard.lenientTrailingSlash Json.bool? lenient
      dropSemicolonContent :=
        ← Json.withDefault standard.dropSemicolonContent Json.bool? semicolons
      nameMappings := ← Json.withDefault standard.nameMappings Json.bool? naming
      globalCors := ← Json.withDefault none (Json.nullable CorsConfig.ofJson?) cors }
  | _ => none

/-- Settings in JSON. -/
def toJson (c : MappingConfig) : Json :=
  Json.ofFields
    [("use_trailing_slash_match", .bool c.lenientTrailingSlash),
      ("remove_semicolon_content", .bool c.dropSemicolonContent),
      ("naming_strategy", .bool c.nameMappings),
      ("global_cors", Json.ofOption CorsConfig.toJson c.globalCors)]

end MappingConfig

namespace DispatcherConfig

/-- The fields of the settings in their order. -/
def fieldNames : List String :=
  ["throw_exception_if_no_handler_found", "async_timeout_ms"]

/-- Read settings. -/
def ofJson? (json : Json) : Option DispatcherConfig := do
  let found ← json.found? fieldNames
  match found.fields with
  | [fault, timeout] =>
    return {
      faultOnMiss := ← Json.withDefault standard.faultOnMiss Json.bool? fault
      asyncTimeout := ← Json.withDefault none (Json.nullable (Json.natBelow? wordLimit)) timeout }
  | _ => none

/-- Settings in JSON. -/
def toJson (c : DispatcherConfig) : Json :=
  Json.ofFields
    [("throw_exception_if_no_handler_found", .bool c.faultOnMiss),
      ("async_timeout_ms", Json.ofOption Json.ofNat c.asyncTimeout)]

end DispatcherConfig

/-- Where settings come from: they are the standard ones, or a text is read, which may be missing. -/
inductive ConfigSource where
  | standard
  | text (content : Option String)

/-- Load settings. -/
def ConfigSource.load? {α : Type} (source : ConfigSource) (standard : α)
    (decode : Json → Option α) : Option α :=
  match source with
  | .standard => some standard
  | .text content => (content.bind Json.read?).bind decode

end HttpRouting
