import Groundwork.Record

/-!
Tags of a file: its language, and what its path, its imports and its text hint at.
-/

namespace Groundwork

namespace Tagging

def pathHints : List (String × String) :=
  [("api/", "api"), ("component", "component"), ("service", "service"), ("model", "model"),
    ("util", "utility"), ("middleware", "middleware"), ("auth", "authentication"),
    ("database", "database"), ("db", "database")]

def importHints : List (String × String) :=
  [("react", "react"), ("express", "express"), ("next", "nextjs"), ("prisma", "prisma"),
    ("mongoose", "mongodb"), ("redis", "redis"), ("jwt", "jwt"), ("bcrypt", "encryption")]

def contentHints : List (List String × String) :=
  [(["SELECT", "INSERT"], "sql"), (["fetch(", "axios", "requests."], "http-client"),
    (["router", "app.get", "@app.route"], "routing"), (["auth", "login"], "authentication"),
    (["validate", "schema"], "validation"), (["cache", "redis"], "caching"),
    (["queue", "job"], "background-jobs")]

def hinted (hints : List (String × String)) (text : String) : List String :=
  (hints.filter fun (needle, _) => Text.contains text needle).map (·.2)

def tags (path : String) (record : FileRecord) (content : String) : List String :=
  Text.distinct <|
    record.language :: (hinted pathHints (Text.lower path) ++
      record.imports.flatMap (fun name => hinted importHints (Text.lower name)) ++
      (contentHints.filter fun (needles, _) => Text.containsAny content needles).map (·.2))

end Tagging

end Groundwork
