import RestWiring.Stencil

/-!
# The stencils of generated code

Functions are written in Python. One stencil stands for each kind of part; lines are numbered as in
the written form of the stencil, so that a failure can say where it arose.
-/
namespace RestWiring.CodeStencils

open Stencil

/-- A place that shows a variable as it is. -/
def shown (line : Nat) (name : String) : Segment := .emit line (.variable name)

/-- A place that shows a variable as a literal. -/
def literal (line : Nat) (name : String) : Segment := .emit line (.filter "tojson" (.variable name) [])

/-- Imports and the headers that every request carries. -/
def header : Stencil :=
  [.each 1 "module" (.variable "imports")
     [.text "import ",
      shown 2 "module",
      .text "\n"],
   .text ("\n" ++
     "HEADERS = \x7b\n" ++
     "    \"User-Agent\": "),
   literal 6 "user_agent",
   .text (",\n" ++
     "    \"Accept\": "),
   literal 7 "accept",
   .text (",\n" ++
     "    \"Accept-Language\": "),
   literal 8 "accept_language",
   .text (",\n" ++
     "    \"Cache-Control\": "),
   literal 9 "cache_control",
   .text (",\n" ++
     "\x7d")]

/-- Puts a credential into the headers of a request, as a descriptor says. -/
def authenticator : Stencil :=
  [.text "AUTHENTICATION = json.loads(",
   literal 1 "descriptor",
   .text (")\n" ++
     "\n" ++
     "\n" ++
     "def credential():\n" ++
     "    return os.environ.get(AUTHENTICATION.get(\"env\", \"\"), \"\")\n" ++
     "\n" ++
     "\n" ++
     "def authenticate(headers):\n" ++
     "    scheme = AUTHENTICATION.get(\"type\", \"none\")\n" ++
     "    secret = credential()\n" ++
     "    if scheme == \"bearer\":\n" ++
     "        headers[\"Authorization\"] = \"Bearer \" + secret\n" ++
     "    elif scheme == \"api_key\":\n" ++
     "        headers[AUTHENTICATION.get(\"header\", \"X-Api-Key\")] = secret\n" ++
     "    return headers")]

/-- The entry point, around the steps of one invocation. -/
def handler : Stencil :=
  [.text "def ",
   shown 1 "name",
   .text ("(event, context):\n" ++
     "    try:\n"),
   .each 3 "child" (.variable "children")
     [.emit 4 (.filter "indent" (.variable "child") [.literal (.int 8), .literal (.bool true)]),
      .text "\n"],
   .text ("    except Exception as error:\n" ++
     "        return \x7b\"statusCode\": "),
   shown 7 "error_code",
   .text ", \"body\": json.dumps(\x7b\"error\": str(error)\x7d)\x7d"]

/-- Sends a request, again after a failure to connect, and checks the status of the answer. -/
def request : Stencil :=
  [.text ("params = event.get(\"params\", \x7b\x7d)\n" ++
     "url = "),
   literal 2 "url",
   .text ".format(**params)\n",
   .branch 3 (.variable "authenticated")
     [.text "headers = authenticate(dict(HEADERS))\n"]
     [.text "headers = dict(HEADERS)\n"],
   .branch 8 (.variable "request_body")
     [.text "body = json.loads(",
      literal 9 "request_body",
      .text ")\n"]
     [],
   shown 11 "response_variable",
   .text (" = None\n" ++
     "for attempt in range("),
   shown 12 "retries",
   .text ("):\n" ++
     "    try:\n" ++
     "        "),
   shown 14 "response_variable",
   .text (" = requests.request(\n" ++
     "            \""),
   shown 15 "method",
   .text ("\",\n" ++
     "            url,\n" ++
     "            headers=headers,\n"),
   .branch 18 (.variable "request_body")
     [.text "            json=body,\n"]
     [],
   .text "            timeout=",
   .emit 21 (.binary .div (.variable "timeout_ms") (.literal (.int 1000))),
   .text (",\n" ++
     "        )\n" ++
     "        break\n" ++
     "    except requests.RequestException:\n" ++
     "        if attempt == "),
   .emit 25 (.binary .sub (.variable "retries") (.literal (.int 1))),
   .text (":\n" ++
     "            raise\n" ++
     "if "),
   shown 27 "response_variable",
   .text ".status_code != ",
   shown 27 "response_status",
   .text (":\n" ++
     "    raise RuntimeError(\""),
   shown 28 "method",
   .text " \" + url + \" returned \" + str(",
   shown 28 "response_variable",
   .text ".status_code))"]

/-- Takes a value out of a body along a path of keys. -/
def bodyReader : Stencil :=
  [shown 1 "variable",
   .text " = ",
   shown 1 "source",
   .text "\n",
   .each 2 "key" (.variable "select")
     [shown 3 "variable",
      .text " = ",
      shown 3 "variable",
      .text "[",
      literal 3 "key",
      .text "]\n"]]

/-- Reads all items of a table. -/
def tableReader : Stencil :=
  [.text "connection = os.environ.get(\"RESTMAP_CONNECTION\", ",
   literal 1 "connection_string",
   .text ")\n",
   .branch 2 (.variable "authenticated")
     [.text ("table = boto3.resource(\n" ++
        "    \"dynamodb\",\n" ++
        "    endpoint_url=connection or None,\n" ++
        "    aws_session_token=credential() or None,\n" ++
        ").Table("),
      literal 7 "table",
      .text ")\n"]
     [.text "table = boto3.resource(\"dynamodb\", endpoint_url=connection or None).Table(",
      literal 9 "table",
      .text ")\n"],
   shown 11 "variable",
   .text " = table.scan().get(\"Items\", [])"]

/-- Writes a value into a sink. -/
def loader : Stencil :=
  [.branch 1 (.binary .equal (.variable "sink") (.literal (.text "queue")))
     [.text ("sqs = boto3.client(\"sqs\")\n" ++
        "sqs.send_message(\n" ++
        "    QueueUrl=sqs.get_queue_url(QueueName="),
      literal 4 "target",
      .text (")[\"QueueUrl\"],\n" ++
        "    MessageBody=json.dumps("),
      shown 5 "source_variable",
      .text ("),\n" ++
        ")\n")]
     [.branch 7 (.binary .equal (.variable "sink") (.literal (.text "bucket")))
        [.text ("boto3.client(\"s3\").put_object(\n" ++
           "    Bucket="),
         literal 9 "target",
         .text (",\n" ++
           "    Key=context.aws_request_id + \".json\",\n" ++
           "    Body=json.dumps("),
         shown 11 "source_variable",
         .text ("),\n" ++
           ")\n")]
        [.branch 13 (.binary .equal (.variable "sink") (.literal (.text "table")))
           [.text "boto3.resource(\"dynamodb\").Table(",
            literal 14 "target",
            .text ").put_item(Item=",
            shown 14 "source_variable",
            .text ")\n"]
           [.branch 15 (.binary .equal (.variable "sink") (.literal (.text "topic")))
              [.text ("sns = boto3.client(\"sns\")\n" ++
                 "sns.publish(\n" ++
                 "    TopicArn=sns.create_topic(Name="),
               literal 18 "target",
               .text (")[\"TopicArn\"],\n" ++
                 "    Message=json.dumps("),
               shown 19 "source_variable",
               .text ("),\n" ++
                 ")\n")]
              []]]]]

/-- Returns a value, under the names of the parameters it supplies. -/
def response : Stencil :=
  [.branch 1 (.variable "params")
     [shown 2 "return_variable",
      .text " = dict(params=dict.fromkeys([",
      .each 2 "param" (.variable "params")
        [literal 2 "param",
         .branch 2 (.not (.member (.variable "loop") "last"))
           [.text ", "]
           []],
      .text "], ",
      shown 2 "return_variable",
      .text "))\n"]
     [],
   .text ("return \x7b\n" ++
     "    \"statusCode\": "),
   shown 5 "success_code",
   .text (",\n" ++
     "    \"headers\": \x7b\"Content-Type\": "),
   literal 6 "content_type",
   .text "\x7d,\n",
   .branch 7 (.binary .equal (.variable "return_type") (.literal (.text "json")))
     [.text "    \"body\": json.dumps(",
      shown 8 "return_variable",
      .text "),\n"]
     [.text "    \"body\": str(",
      shown 10 "return_variable",
      .text "),\n"],
   .text "\x7d"]

end RestWiring.CodeStencils
