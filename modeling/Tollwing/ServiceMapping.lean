/-
Which rule of the service mapper wins (`pkg/dns/service_mapper.go`).

`Lookup` tries every shape of a rule before it turns to the next rule, so that the
regional form of an early rule comes before the suffix of a later one.

* `MappingRule.regional_iff` — the domains in the regional form of a rule;
* `ServiceMapper.lookupLower_eq` — the rules before the first exact match decide;
* `ServiceMapper.built_prefersExact_iff` — the domains whose service is that of an exact
  match.
-/
import Tollwing.DNSTracker

/-- `NewServiceMapper`. -/
def newServiceMapper : ServiceMapper where
  rules := [
    -- AWS
    ⟨".s3.amazonaws.com", "S3"⟩,
    ⟨".s3-accesspoint.amazonaws.com", "S3"⟩,
    ⟨".dynamodb.amazonaws.com", "DynamoDB"⟩,
    ⟨".sqs.amazonaws.com", "SQS"⟩,
    ⟨".sns.amazonaws.com", "SNS"⟩,
    ⟨".kinesis.amazonaws.com", "Kinesis"⟩,
    ⟨".rds.amazonaws.com", "RDS"⟩,
    ⟨".elasticache.amazonaws.com", "ElastiCache"⟩,
    ⟨".redshift.amazonaws.com", "Redshift"⟩,
    ⟨".lambda.amazonaws.com", "Lambda"⟩,
    ⟨".execute-api.amazonaws.com", "API Gateway"⟩,
    ⟨".elb.amazonaws.com", "ELB"⟩,
    ⟨".cloudfront.net", "CloudFront"⟩,
    ⟨".ecr.amazonaws.com", "ECR"⟩,
    ⟨".secretsmanager.amazonaws.com", "Secrets Manager"⟩,
    ⟨".monitoring.amazonaws.com", "CloudWatch"⟩,
    ⟨".logs.amazonaws.com", "CloudWatch Logs"⟩,
    ⟨".events.amazonaws.com", "EventBridge"⟩,
    ⟨".sts.amazonaws.com", "STS"⟩,
    ⟨".ec2.amazonaws.com", "EC2"⟩,
    -- GCP
    ⟨".storage.googleapis.com", "Cloud Storage"⟩,
    ⟨".bigquery.googleapis.com", "BigQuery"⟩,
    ⟨".pubsub.googleapis.com", "Pub/Sub"⟩,
    ⟨".firestore.googleapis.com", "Firestore"⟩,
    ⟨".spanner.googleapis.com", "Spanner"⟩,
    ⟨".run.googleapis.com", "Cloud Run"⟩,
    ⟨".cloudfunctions.googleapis.com", "Cloud Functions"⟩,
    ⟨".container.googleapis.com", "GKE"⟩,
    ⟨".compute.googleapis.com", "Compute Engine"⟩,
    ⟨".sqladmin.googleapis.com", "Cloud SQL"⟩,
    ⟨".redis.googleapis.com", "Memorystore"⟩,
    ⟨".logging.googleapis.com", "Cloud Logging"⟩,
    ⟨".monitoring.googleapis.com", "Cloud Monitoring"⟩,
    ⟨".artifactregistry.googleapis.com", "Artifact Registry"⟩,
    ⟨".gcr.io", "Container Registry"⟩,
    ⟨".pkg.dev", "Artifact Registry"⟩,
    -- Azure
    ⟨".blob.core.windows.net", "Azure Blob"⟩,
    ⟨".table.core.windows.net", "Azure Table"⟩,
    ⟨".queue.core.windows.net", "Azure Queue"⟩,
    ⟨".file.core.windows.net", "Azure Files"⟩,
    ⟨".database.windows.net", "Azure SQL"⟩,
    ⟨".documents.azure.com", "Cosmos DB"⟩,
    ⟨".redis.cache.windows.net", "Azure Cache for Redis"⟩,
    ⟨".servicebus.windows.net", "Service Bus"⟩,
    ⟨".azurecr.io", "Container Registry"⟩,
    ⟨".azurewebsites.net", "App Service"⟩,
    ⟨".vault.azure.net", "Key Vault"⟩,
    ⟨".cognitiveservices.azure.com", "Cognitive Services"⟩,
    ⟨".search.windows.net", "Azure Search"⟩,
    ⟨".eventgrid.azure.net", "Event Grid"⟩,
    -- Common third-party / CDN
    ⟨".datadog.com", "Datadog"⟩,
    ⟨".datadoghq.com", "Datadog"⟩,
    ⟨".newrelic.com", "New Relic"⟩,
    ⟨".pagerduty.com", "PagerDuty"⟩,
    ⟨".slack.com", "Slack"⟩,
    ⟨".github.com", "GitHub"⟩,
    ⟨".docker.io", "Docker Hub"⟩]

/-- `AddRule`. -/
def ServiceMapper.addRule (m : ServiceMapper) (rule : MappingRule) : ServiceMapper :=
  { m with rules := m.rules ++ [rule] }

/-- A table of the built-in rules and added ones. -/
def builtWith (added : List MappingRule) : ServiceMapper :=
  added.foldl ServiceMapper.addRule newServiceMapper

/-- If a rule matches exactly, the service is that of such a rule. -/
def ServiceMapper.PrefersExact (m : ServiceMapper) (lower : List UInt8) : Prop :=
  (∃ rule ∈ m.rules, rule.exact lower = true) →
    ∃ rule ∈ m.rules, rule.exact lower = true ∧ m.lookupLower lower = rule.service

/-- The first of the rules before every exact match that matches in the regional form. -/
def ServiceMapper.regionalFirst (m : ServiceMapper) (lower : List UInt8) : Option MappingRule :=
  (m.rules.takeWhile fun rule => !rule.exact lower).find? fun rule => rule.regional lower

/-- Where it stands before an exact match, it is of the same service as some exact match. -/
def ServiceMapper.Unshadowed (m : ServiceMapper) (lower : List UInt8) : Prop :=
  (∃ rule ∈ m.rules, rule.exact lower = true) → ∀ rule, m.regionalFirst lower = some rule →
    ∃ rule' ∈ m.rules, rule'.exact lower = true ∧ rule'.service = rule.service

instance (m : ServiceMapper) (lower : List UInt8) : Decidable (m.PrefersExact lower) :=
  inferInstanceAs (Decidable (_ → _))

/-- The first element with either of two properties. -/
theorem find?_or {α : Type*} (p q : α → Bool) (l : List α) :
    l.find? (fun a => p a || q a) =
      ((l.takeWhile fun a => !p a).find? q).or (l.find? p) := by
  induction l with
  | nil => rfl
  | cons a l ih =>
    by_cases hp : p a = true
    · rw [List.find?_cons_of_pos (by rw [hp, Bool.true_or]), List.find?_cons_of_pos hp,
        List.takeWhile_cons_of_neg (by rw [hp]; exact Bool.false_ne_true)]
      rfl
    have hneg := Bool.eq_false_of_not_eq_true hp
    rw [List.takeWhile_cons_of_pos (by rw [hneg]; rfl), List.find?_cons_of_neg (p := p) hp]
    by_cases hq : q a = true
    · rw [List.find?_cons_of_pos (by rw [hq, Bool.or_true]), List.find?_cons_of_pos hq]
      rfl
    · rw [List.find?_cons_of_neg (by rw [hneg, Bool.false_or]; exact hq),
        List.find?_cons_of_neg hq, ih]

theorem take_token (c : UInt8) (token : List UInt8) :
    ((c :: token ++ awsTail).drop 1).take
      ((c :: token ++ awsTail).length - awsTail.length - 1) = token := by
  rw [List.length_append, Nat.add_sub_cancel, List.length_cons, Nat.add_sub_cancel]
  exact List.take_left

/-- **The regional form**: for a rule of suffix `.token.amazonaws.com`, the domains
`token.….amazonaws.com`. -/
theorem MappingRule.regional_iff (rule : MappingRule) (lower : List UInt8) :
    rule.regional lower = true ↔ awsTail <:+ lower ∧ ∃ c token,
      utf8 rule.suffix = c :: token ++ awsTail ∧ token ≠ [] ∧ token ++ utf8 "." <+: lower := by
  rw [regional]
  simp only [Bool.and_eq_true, List.isSuffixOf_iff_suffix, List.isPrefixOf_iff_prefix,
    Bool.not_eq_true', List.isEmpty_eq_false_iff]
  constructor
  · rintro ⟨⟨⟨hlower, front, hfront⟩, hne⟩, htoken⟩
    refine ⟨hlower, ?_⟩
    rw [← hfront] at hne htoken
    cases front with
    | nil =>
      rw [List.nil_append, Nat.sub_self, Nat.zero_sub, List.take_zero] at hne
      exact absurd rfl hne
    | cons c token =>
      rw [take_token] at hne htoken
      exact ⟨c, token, hfront.symm, hne, htoken⟩
  · rintro ⟨hlower, c, token, hsuffix, hne, htoken⟩
    rw [hsuffix, take_token]
    exact ⟨⟨⟨hlower, List.suffix_append _ _⟩, hne⟩, htoken⟩

namespace ServiceMapper

variable {m : ServiceMapper} {lower : List UInt8}

/-- **The loop of `Lookup`** stops at the first exact match, or at a regional one before it. -/
theorem lookupLower_eq (m : ServiceMapper) (lower : List UInt8) :
    m.lookupLower lower =
      (((m.regionalFirst lower).or (m.rules.find? fun rule => rule.exact lower)).map
        MappingRule.service).getD "" := by
  have hfind := find?_or (fun rule : MappingRule => rule.exact lower)
    (fun rule => rule.regional lower) m.rules
  rw [regionalFirst, ← hfind]
  rfl

/-- A table prefers its exact matches exactly when no regional match shadows them. -/
theorem prefersExact_iff : m.PrefersExact lower ↔ m.Unshadowed lower := by
  refine forall_congr' fun hexact => ?_
  rw [lookupLower_eq]
  cases hfirst : m.regionalFirst lower with
  | some rule =>
    constructor
    · rintro ⟨rule', hmem, hrule', hservice⟩ rule'' heq
      obtain rfl := Option.some_inj.mp heq
      exact ⟨rule', hmem, hrule', hservice.symm⟩
    · intro h
      obtain ⟨rule', hmem, hrule', hservice⟩ := h rule rfl
      exact ⟨rule', hmem, hrule', hservice.symm⟩
  | none =>
    refine iff_of_true ?_ nofun
    cases hfind : m.rules.find? fun rule => rule.exact lower with
    | none =>
      obtain ⟨rule, hmem, hrule⟩ := hexact
      exact absurd hrule (List.find?_eq_none.mp hfind rule hmem)
    | some rule =>
      exact ⟨rule, List.mem_of_find?_eq_some hfind,
        List.find?_some (p := fun rule => MappingRule.exact rule lower) hfind, rfl⟩

/-- Outside of `amazonaws.com` nothing shadows an exact match. -/
theorem prefersExact_of_not_aws (h : ¬awsTail <:+ lower) : m.PrefersExact lower := by
  refine prefersExact_iff.mpr fun _ rule hfirst => ?_
  have hregional : rule.regional lower = true :=
    List.find?_some (p := fun rule => MappingRule.regional rule lower) hfirst
  exact absurd (rule.regional_iff lower |>.mp hregional).1 h

/-- **Exact matches win** for exactly the domains that no regional match shadows, with any
rules added to the built-in ones and any lower case. -/
theorem built_prefersExact_iff (toLower : List UInt8 → List UInt8) (added : List MappingRule)
    (domain : List UInt8) :
    (builtWith added).PrefersExact (toLower domain) ↔
      (builtWith added).Unshadowed (toLower domain) :=
  prefersExact_iff

/-- A DynamoDB name whose first label is that of an earlier service. -/
theorem regional_shadows_exact :
    (builtWith []).lookup "s3.dynamodb.amazonaws.com" = "S3" ∧
      ¬(builtWith []).PrefersExact (utf8 "s3.dynamodb.amazonaws.com".toLower) := by
  decide +kernel

end ServiceMapper
