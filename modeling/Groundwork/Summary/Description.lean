import Groundwork.Language
import Groundwork.Record

/-!
Descriptions of files that need no provider: a sentence chosen by what the path contains, or a count
of what the file holds.
-/

namespace Groundwork.Summary

open Text

def httpMethods : List String := ["GET", "POST", "PUT", "DELETE", "PATCH"]

def apiMethods (r : FileRecord) : List String :=
  distinct <| r.functions.flatMap fun f =>
    httpMethods.filter fun method => contains (upper f.name) method || f.name == lower method

def counted (n : Nat) (what : String) : List String :=
  if n = 0 then [] else [toString n ++ " " ++ what]

def countsDescription (r : FileRecord) : String :=
  let parts := counted r.functions.length "functions" ++ counted r.classes.length "classes" ++
    counted r.exports.length "exports"
  let language := Language.displayName r.path
  if parts.isEmpty then language ++ " file containing basic code structure and definitions"
  else language ++ " module containing " ++ join ", " parts

/-- The description of a file by its path; the first rule that fits decides. -/
def describe (r : FileRecord) : String :=
  let path := lower r.path
  let functions := toString r.functions.length
  let classes := toString r.classes.length
  let exports := toString r.exports.length
  if contains path "config" || endsWith path ".json" then
    s!"Configuration file defining {exports} settings and options"
  else if containsAny path ["types", "interface"] then
    s!"Type definitions providing {exports} interfaces and type declarations"
  else if endsWith path ".tsx" && !r.exports.isEmpty then
    let first := r.exports.headD ""
    s!"React component: {first} with {functions} methods and {classes} classes"
  else if contains path "api/" && containsAny path ["route", "handler"] then
    let methods := apiMethods r
    let handled := if methods.isEmpty then "HTTP" else join ", " methods
    s!"API endpoint handling {handled} requests with {functions} handlers"
  else if contains path "service" then
    s!"Service layer providing {functions} business operations and {classes} service classes"
  else if containsAny path ["util", "helper"] then
    s!"Utility module with {functions} helper functions and {exports} exports"
  else if containsAny path ["model", "schema", "database"] then
    s!"Data layer defining {classes} models and {functions} database operations"
  else if contains path "middleware" then
    s!"Middleware module with {functions} middleware functions for request processing"
  else if containsAny path ["test", "spec"] then
    s!"Test suite with {functions} test cases for validation and quality assurance"
  else countsDescription r

end Groundwork.Summary
